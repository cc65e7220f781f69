import Micro6502.Proofs.Subroutine

namespace Micro6502

/-- What may be done to a memory: the actions of the stack, and others between them. -/
inductive StackOp where
  | push (value : Int)
  | pull
  | call (target : Int)
  | ret
  | fetch
  | jump (target : Int)
  | write (address value : Int)
  deriving DecidableEq, Repr

def StackOp.act : StackOp → MachineM (Option Byte)
  | push value => do
    Machine.onMemory (Memory.push value)
    return none
  | pull => do return some (← Machine.onMemory Memory.pull)
  | call target => do
    Mnemonic.call (some target)
    return none
  | ret => do
    Machine.onMemory Memory.ret
    return none
  | fetch => do
    let _ ← Mode.fetch
    return none
  | jump target => do
    Machine.onMemory (Memory.jump target)
    return none
  | write address value => do
    Machine.write address value
    return none

def StackOp.IsWrite : StackOp → Prop
  | write _ _ => True
  | _ => False

/-- The machine after the operations. One that fails does not keep the next from being done. -/
def Machine.afterOps (m : Machine) (ops : List StackOp) : Machine :=
  ops.foldl (fun m op => after op.act m) m

/-- What lies on an ideal stack: a byte, or a program counter to come back to. -/
inductive StackEntry where
  | value (b : Byte)
  | saved (pc : Int)
  deriving DecidableEq, Repr

namespace StackEntry

def bytes : StackEntry → List Byte
  | value b => [b]
  | saved pc => [byte (wordBytes pc).2, byte (wordBytes pc).1]

/-- Takes the topmost byte. Half of a return address leaves the other half behind. -/
def pop : List StackEntry → Option (Byte × List StackEntry)
  | [] => none
  | value b :: rest => some (b, rest)
  | saved pc :: rest => some (byte (wordBytes pc).2, value (byte (wordBytes pc).1) :: rest)

end StackEntry

structure IdealStack where
  entries : List StackEntry := []
  pc : Int
  deriving DecidableEq, Repr

namespace IdealStack

open StackEntry

def bytes (s : IdealStack) : List Byte := s.entries.flatMap StackEntry.bytes

def depth (s : IdealStack) : Nat := s.bytes.length

/-- What an operation does to an ideal stack, and the byte that a pull gives. There is nothing to
pull below the start, no room for more than a page, and no other write goes to the page. -/
def perform (s : IdealStack) : StackOp → Option (Option Byte × IdealStack)
  | .push n =>
    if s.depth < 0x100 then some (none, { s with entries := value (byte n) :: s.entries }) else none
  | .pull => do
    let (b, rest) ← pop s.entries
    return (some b, { s with entries := rest })
  | .call target =>
    if s.depth + 2 ≤ 0x100 then some (none, ⟨saved s.pc :: s.entries, word target⟩) else none
  | .ret => match s.entries with
    | saved pc :: rest => some (none, ⟨rest, pc⟩)
    | entries => do
      let (hi, entries) ← pop entries
      let (lo, entries) ← pop entries
      return (none, ⟨entries, wordOf lo hi⟩)
  | .fetch => some (none, { s with pc := word (s.pc + 1) })
  | .jump target => some (none, { s with pc := word target })
  | .write address _ =>
    if 0x0100 ≤ word address ∧ word address ≤ 0x01FF then none else some (none, s)

def performAll : List StackOp → IdealStack → Option IdealStack
  | [], s => some s
  | op :: rest, s => do performAll rest (← s.perform op).2

end IdealStack

namespace Memory

variable {m m' : Memory} {start : Int} {b : Byte} {bs : List Byte}

def above (m : Memory) (count : Nat) : List Byte :=
  (List.range count).map fun (i : Nat) => m.cell (stackBase + (m.sp + 1 + i) % 0x100)

theorem above_congr (hsp : m'.sp = m.sp)
    (hcell : ∀ i : Int, m'.cell (stackBase + i % 0x100) = m.cell (stackBase + i % 0x100))
    (count : Nat) : m'.above count = m.above count := by
  simp only [above, hsp, hcell]

theorem above_pushed (h : m.Flat) (hsp : 0 ≤ m.sp ∧ m.sp ≤ 0xFF) {count : Nat}
    (hroom : count < 0x100) (n : Int) :
    (m.pushed n).above (count + 1) = byte n :: m.above count := by
  have hpushed : (m.pushed n).sp = (m.sp - 1) % 0x100 := rfl
  rw [above, above, List.range_succ_eq_map, List.map_cons, List.map_map, hpushed]
  congr 1
  · rw [cell_pushed h, if_pos]
    unfold word
    omega
  · refine List.map_congr_left fun i hi => ?_
    have hi := List.mem_range.mp hi
    have hplace : ((m.sp - 1) % 0x100 + 1 + ((i + 1 : Nat) : Int)) % 0x100 =
        (m.sp + 1 + i) % 0x100 := by
      omega
    simp only [Function.comp_apply, Nat.succ_eq_add_one]
    rw [hplace, cell_pushed h, if_neg]
    unfold word stackBase
    omega

theorem above_succ (m : Memory) (count : Nat) :
    m.above (count + 1) = m.cell (stackBase + (m.sp + 1) % 0x100) :: m.pulled.above count := by
  have hpulled : m.pulled.sp = (m.sp + 1) % 0x100 := rfl
  rw [above, above, List.range_succ_eq_map, List.map_cons, List.map_map, hpulled]
  congr 1
  · simp
  · refine List.map_congr_left fun i _ => ?_
    have hplace : (m.sp + 1 + ((i + 1 : Nat) : Int)) % 0x100 =
        ((m.sp + 1) % 0x100 + 1 + i) % 0x100 := by
      omega
    simp only [Function.comp_apply, Nat.succ_eq_add_one]
    rw [hplace]
    exact (cell_noted m _ _).symm

/-- The page of the stack holds the bytes, the last pushed one first; the pointer was `start` when
there were none. -/
structure Holds (start : Int) (bs : List Byte) (m : Memory) : Prop where
  flat : m.Flat
  sp : m.sp = (start - bs.length) % 0x100
  room : bs.length ≤ 0x100
  above : m.above bs.length = bs

namespace Holds

theorem empty (h : m.Flat) (hsp : 0 ≤ m.sp ∧ m.sp ≤ 0xFF) : Holds m.sp [] m where
  flat := h
  sp := by
    rw [List.length_nil]
    omega
  room := Nat.zero_le _
  above := rfl

theorem sp_range (h : Holds start bs m) : 0 ≤ m.sp ∧ m.sp ≤ 0xFF := by
  rw [h.sp]
  omega

theorem move (h : Holds start bs m) (pc : Int) : Holds start bs { m with pc } :=
  ⟨h.flat, h.sp, h.room, h.above⟩

theorem fetched (h : Holds start bs m) : Holds start bs m.fetched := by
  have hsp : m.fetched.sp = m.sp := rfl
  have hsame := above_congr hsp (fun _ => m.cell_noted m.pc _) bs.length
  exact ⟨h.flat.fetched, h.sp, h.room, hsame.trans h.above⟩

theorem push (h : Holds start bs m) (hroom : bs.length < 0x100) (n : Int) :
    Holds start (byte n :: bs) (m.pushed n) where
  flat := h.flat.pushed n
  sp := by
    have hsp := h.sp
    change (m.sp - 1) % 0x100 = _
    rw [List.length_cons]
    omega
  room := hroom
  above := by rw [List.length_cons, above_pushed h.flat h.sp_range hroom, h.above]

/-- The byte that a pull finds, and what it leaves. -/
theorem pull (h : Holds start (b :: bs) m) :
    m.cell (stackBase + (m.sp + 1) % 0x100) = b ∧ Holds start bs m.pulled := by
  have habove := h.above
  rw [List.length_cons, above_succ] at habove
  obtain ⟨hb, hbs⟩ := List.cons.inj habove
  have hroom := h.room
  have hsp := h.sp
  rw [List.length_cons] at hroom hsp
  refine ⟨hb, h.flat.pulled, ?_, by omega, hbs⟩
  change (m.sp + 1) % 0x100 = _
  omega

/-- A return pulls two bytes, the high one first. -/
theorem ret {lo hi : Byte} (h : Holds start (hi :: lo :: bs) m) :
    ∃ m', Memory.ret m = .ok () m' ∧ Holds start bs m' ∧ m'.pc = wordOf lo hi := by
  obtain ⟨hhi, hrest⟩ := h.pull
  obtain ⟨hlo, hbs⟩ := hrest.pull
  have hlo : m.cell (stackBase + ((m.sp + 1) % 0x100 + 1) % 0x100) = lo :=
    (cell_noted m _ _).symm.trans hlo
  refine ⟨_, ret_eq h.flat, hbs.move _, ?_⟩
  simp only [hhi, hlo]
  exact word_of_range (Mode.wordOf_range _ _).1 (Mode.wordOf_range _ _).2

/-- A write elsewhere does not touch the stack. -/
theorem stored (h : Holds start bs m) {address : Int}
    (hout : ¬ (0x0100 ≤ word address ∧ word address ≤ 0x01FF)) (value : Int) :
    Holds start bs (m.stored address value) := by
  have hcell (i : Int) : (m.stored address value).cell (stackBase + i % 0x100) =
      m.cell (stackBase + i % 0x100) := by
    have hplace : word (stackBase + i % 0x100) = 0x0100 + i % 0x100 := by
      unfold word stackBase
      omega
    rw [cell_stored h.flat, if_neg]
    omega
  have hsp : (m.stored address value).sp = m.sp := rfl
  have hsame := above_congr hsp hcell bs.length
  exact ⟨h.flat.stored address value, h.sp, h.room, hsame.trans h.above⟩

end Holds

end Memory

namespace StackEntry

theorem pop_bytes {entries rest : List StackEntry} {b : Byte} (h : pop entries = some (b, rest)) :
    entries.flatMap bytes = b :: rest.flatMap bytes := by
  cases entries with
  | nil => cases h
  | cons entry entries =>
    cases entry <;>
      · obtain ⟨rfl, rfl⟩ := Prod.mk.inj (Option.some.inj h)
        rfl

theorem pop_subset {entries rest : List StackEntry} {b : Byte} (h : pop entries = some (b, rest))
    {pc : Int} (hpc : saved pc ∈ rest) : saved pc ∈ entries := by
  cases entries with
  | nil => cases h
  | cons entry entries =>
    cases entry <;>
      · obtain ⟨rfl, rfl⟩ := Prod.mk.inj (Option.some.inj h)
        simp_all

end StackEntry

namespace IdealStack

open StackEntry

variable {s s' : IdealStack} {b : Option Byte}

structure Words (s : IdealStack) : Prop where
  pc : word s.pc = s.pc
  saved : ∀ pc, .saved pc ∈ s.entries → word pc = pc

/-- A return takes two bytes off, and goes on at the word that they make up. -/
theorem Words.ret (h : s.Words) (hop : s.perform .ret = some (b, s')) :
    b = none ∧ s'.Words ∧
      ∃ lo hi : Byte, s.bytes = hi :: lo :: s'.bytes ∧ s'.pc = wordOf lo hi := by
  obtain ⟨entries, pc⟩ := s
  cases entries with
  | nil => cases hop
  | cons entry entries =>
    cases entry with
    | saved back =>
      obtain ⟨rfl, rfl⟩ := Prod.mk.inj (Option.some.inj hop)
      have hback : word back = back := h.saved back List.mem_cons_self
      exact ⟨rfl, ⟨hback, fun pc hpc => h.saved pc (List.mem_cons_of_mem _ hpc)⟩, _, _, rfl,
        hback.symm.trans (wordOf_bytes back).symm⟩
    | value hi =>
      obtain ⟨⟨lo, rest⟩, hpop, hrest⟩ := Option.bind_eq_some_iff.mp hop
      obtain ⟨rfl, rfl⟩ := Prod.mk.inj (Option.some.inj hrest)
      have hword : word (wordOf lo hi) = wordOf lo hi :=
        word_of_range (Mode.wordOf_range _ _).1 (Mode.wordOf_range _ _).2
      refine ⟨rfl, ⟨hword, fun pc hpc => ?_⟩, lo, hi, ?_, rfl⟩
      · exact h.saved pc (List.mem_cons_of_mem _ (pop_subset hpop hpc))
      · exact congrArg (hi :: ·) (pop_bytes hpop)

end IdealStack

namespace Machine

open StackEntry

variable {m : Machine} {s s' : IdealStack} {start : Int} {op : StackOp} {b : Option Byte}

/-- The machine holds what the ideal stack says. The stack pointer was `start` when there was
nothing on it. -/
structure Refines (start : Int) (m : Machine) (s : IdealStack) : Prop where
  holds : Memory.Holds start s.bytes m.memory
  pc : m.memory.pc = s.pc
  words : s.Words

namespace Refines

theorem push (h : Refines start m s) {n : Int} (hop : s.perform (.push n) = some (b, s')) :
    ∃ m', (StackOp.push n).act m = .ok b m' ∧ Refines start m' s' := by
  obtain ⟨hroom, hs⟩ := Option.ite_none_right_eq_some.mp hop
  obtain ⟨rfl, rfl⟩ := Prod.mk.inj (Option.some.inj hs)
  refine ⟨_, bind_ok (push_flat h.holds.flat n), h.holds.push hroom n, h.pc, h.words.pc, ?_⟩
  intro pc hpc
  exact h.words.saved pc (by simpa using hpc)

theorem pull (h : Refines start m s) (hop : s.perform .pull = some (b, s')) :
    ∃ m', StackOp.pull.act m = .ok b m' ∧ Refines start m' s' := by
  obtain ⟨⟨data, rest⟩, hpop, hrest⟩ := Option.bind_eq_some_iff.mp hop
  obtain ⟨rfl, rfl⟩ := Prod.mk.inj (Option.some.inj hrest)
  have hholds := h.holds
  rw [IdealStack.bytes, pop_bytes hpop] at hholds
  obtain ⟨hdata, hpulled⟩ := hholds.pull
  have hpull : onMemory Memory.pull m = .ok data { m with memory := m.memory.pulled } := by
    rw [pull_flat hholds.flat, hdata]
  exact ⟨_, bind_ok hpull, hpulled, h.pc, h.words.pc,
    fun pc hpc => h.words.saved pc (pop_subset hpop hpc)⟩

theorem call (h : Refines start m s) {target : Int}
    (hop : s.perform (.call target) = some (b, s')) :
    ∃ m', (StackOp.call target).act m = .ok b m' ∧ Refines start m' s' := by
  obtain ⟨hroom, hs⟩ := Option.ite_none_right_eq_some.mp hop
  obtain ⟨rfl, rfl⟩ := Prod.mk.inj (Option.some.inj hs)
  have hlo := h.holds.push (Nat.lt_of_succ_lt hroom) (wordBytes m.memory.pc).1
  have hhi := hlo.push hroom (wordBytes m.memory.pc).2
  refine ⟨_, bind_ok (call_flat h.holds.flat target), ?_, rfl, word_word target, ?_⟩
  · change Memory.Holds start (_ :: _ :: s.bytes) _
    rw [← h.pc]
    exact hhi.move _
  · intro pc hpc
    rcases List.mem_cons.mp hpc with hpc | hpc
    · cases hpc
      exact h.words.pc
    · exact h.words.saved pc hpc

theorem ret (h : Refines start m s) (hop : s.perform .ret = some (b, s')) :
    ∃ m', StackOp.ret.act m = .ok b m' ∧ Refines start m' s' := by
  obtain ⟨rfl, hwords, lo, hi, hbytes, hpc⟩ := h.words.ret hop
  have hholds := h.holds
  rw [hbytes] at hholds
  obtain ⟨memory, hret, hrest, hmemory⟩ := hholds.ret
  exact ⟨_, bind_ok (onMemory_ok hret), hrest, hmemory.trans hpc.symm, hwords⟩

theorem fetch (h : Refines start m s) (hop : s.perform .fetch = some (b, s')) :
    ∃ m', StackOp.fetch.act m = .ok b m' ∧ Refines start m' s' := by
  obtain ⟨rfl, rfl⟩ := Prod.mk.inj (Option.some.inj hop)
  refine ⟨_, bind_ok (fetch_flat h.holds.flat), h.holds.fetched, ?_, word_word _, h.words.saved⟩
  exact congrArg (fun pc => word (pc + 1)) h.pc

theorem jump (h : Refines start m s) {target : Int}
    (hop : s.perform (.jump target) = some (b, s')) :
    ∃ m', (StackOp.jump target).act m = .ok b m' ∧ Refines start m' s' := by
  obtain ⟨rfl, rfl⟩ := Prod.mk.inj (Option.some.inj hop)
  exact ⟨_, rfl, h.holds.move _, rfl, word_word target, h.words.saved⟩

/-- A write may fail when it is to be shown, but not before the memory has it. -/
theorem write (h : Refines start m s) {address n : Int}
    (hop : s.perform (.write address n) = some (b, s')) :
    Refines start (after (StackOp.write address n).act m) s' := by
  obtain ⟨hout, hs⟩ := Option.ite_none_left_eq_some.mp hop
  obtain ⟨rfl, rfl⟩ := Prod.mk.inj (Option.some.inj hs)
  have hafter : after (StackOp.write address n).act m = m.shown address n := by
    rw [← after_write h.holds.flat]
    exact after_discard _ m
  rw [hafter]
  exact ⟨h.holds.stored hout n, h.pc, h.words⟩

theorem performs (h : Refines start m s) (hop : s.perform op = some (b, s'))
    (hwrite : ¬ op.IsWrite) : ∃ m', op.act m = .ok b m' ∧ Refines start m' s' := by
  cases op with
  | push n => exact h.push hop
  | pull => exact h.pull hop
  | call target => exact h.call hop
  | ret => exact h.ret hop
  | fetch => exact h.fetch hop
  | jump target => exact h.jump hop
  | write address n => exact absurd trivial hwrite

/-- One operation on both sides. -/
theorem step (h : Refines start m s) (hop : s.perform op = some (b, s')) :
    Refines start (after op.act m) s' := by
  have hact (hwrite : ¬ op.IsWrite) : Refines start (after op.act m) s' := by
    obtain ⟨m', hm', h'⟩ := h.performs hop hwrite
    rw [after_ok hm']
    exact h'
  cases op with
  | write address n => exact h.write hop
  | _ => exact hact id

/-- Any number of operations on both sides. -/
theorem run {ops : List StackOp} (h : Refines start m s)
    (hrun : IdealStack.performAll ops s = some s') : Refines start (m.afterOps ops) s' := by
  induction ops generalizing m s with
  | nil =>
    cases hrun
    exact h
  | cons op ops ih =>
    obtain ⟨⟨b, next⟩, hop, hrest⟩ := Option.bind_eq_some_iff.mp hrun
    exact ih (h.step hop) hrest

theorem empty (h : m.memory.Flat) (hsp : 0 ≤ m.memory.sp ∧ m.memory.sp ≤ 0xFF)
    (hpc : 0 ≤ m.memory.pc ∧ m.memory.pc ≤ 0xFFFF) :
    Refines m.memory.sp m ⟨[], m.memory.pc⟩ :=
  ⟨.empty h hsp, rfl, word_of_range hpc.1 hpc.2, nofun⟩

end Refines

/-- The operations of the stack keep to its page. -/
theorem cell_outside (h : m.memory.Flat) (hsp : 0 ≤ m.memory.sp ∧ m.memory.sp ≤ 0xFF)
    (hwrite : ¬ op.IsWrite) {address : Int}
    (hout : ¬ (0x0100 ≤ word address ∧ word address ≤ 0x01FF)) :
    (after op.act m).memory.cell address = m.memory.cell address := by
  have hpushed (memory : Memory) (hflat : memory.Flat) (hrange : 0 ≤ memory.sp ∧ memory.sp ≤ 0xFF)
      (n : Int) : (memory.pushed n).cell address = memory.cell address := by
    rw [Memory.cell_pushed hflat, if_neg]
    unfold word stackBase at *
    omega
  cases op with
  | push n =>
    rw [StackOp.act, after_bind_ok (push_flat h n)]
    exact hpushed m.memory h hsp n
  | pull =>
    rw [StackOp.act, after_bind_ok (pull_flat h)]
    exact Memory.cell_noted m.memory _ address
  | call target =>
    rw [StackOp.act, after_bind_ok (call_flat h target)]
    have hlow : 0 ≤ (m.memory.sp - 1) % 0x100 ∧ (m.memory.sp - 1) % 0x100 ≤ 0xFF := by omega
    exact (hpushed _ (h.pushed _) hlow _).trans (hpushed m.memory h hsp _)
  | ret =>
    rw [StackOp.act, after_bind_ok (onMemory_ok (Memory.ret_eq h))]
    exact (Memory.cell_noted _ _ address).trans (Memory.cell_noted m.memory _ address)
  | fetch =>
    rw [StackOp.act, after_bind_ok (fetch_flat h)]
    exact Memory.cell_noted m.memory _ address
  | jump target => rfl
  | write address n => exact absurd trivial hwrite

/-- After any operations that an ideal stack allows, the stack pointer tells how deep the stack is,
the next pull gives the byte pushed last and not yet pulled, and a return that meets what a call has
saved goes back there. Nothing outside of the page of the stack changes by any of it. -/
theorem stack_refines {ops : List StackOp} (h : m.memory.Flat)
    (hsp : 0 ≤ m.memory.sp ∧ m.memory.sp ≤ 0xFF) (hpc : 0 ≤ m.memory.pc ∧ m.memory.pc ≤ 0xFFFF)
    (hrun : IdealStack.performAll ops ⟨[], m.memory.pc⟩ = some s) :
    let m' := m.afterOps ops
    m'.memory.sp = (m.memory.sp - s.depth) % 0x100 ∧ m'.memory.pc = s.pc ∧
      (∀ b rest, s.entries = value b :: rest → outcome (onMemory Memory.pull) m' = .ok b) ∧
      (∀ pc rest, s.entries = saved pc :: rest →
        outcome (onMemory Memory.ret) m' = .ok () ∧
          (after (onMemory Memory.ret) m').memory.pc = pc) ∧
      ∀ op : StackOp, ¬ op.IsWrite →
        (∀ b s', s.perform op = some (b, s') → outcome op.act m' = .ok b) ∧
        ∀ address, ¬ (0x0100 ≤ word address ∧ word address ≤ 0x01FF) →
          (after op.act m').memory.cell address = m'.memory.cell address := by
  intro m'
  have h' : Refines m.memory.sp m' s := (Refines.empty h hsp hpc).run hrun
  refine ⟨h'.holds.sp, h'.pc, ?_, ?_, fun op hwrite => ⟨?_, ?_⟩⟩
  · intro b rest hs
    have hholds := h'.holds
    rw [IdealStack.bytes, hs] at hholds
    obtain ⟨hb, -⟩ := hholds.pull
    rw [outcome_ok (pull_flat h'.holds.flat), hb]
  · intro pc rest hs
    have hop : s.perform .ret = some (none, ⟨rest, pc⟩) := by rw [IdealStack.perform, hs]
    obtain ⟨-, -, lo, hi, hbytes, hback⟩ := h'.words.ret hop
    have hholds := h'.holds
    rw [hbytes] at hholds
    obtain ⟨memory, hret, -, hmemory⟩ := hholds.ret
    rw [outcome_ok (onMemory_ok hret), after_ok (onMemory_ok hret)]
    exact ⟨rfl, hmemory.trans hback.symm⟩
  · intro b s' hop
    obtain ⟨m'', hact, -⟩ := h'.performs hop hwrite
    exact outcome_ok hact
  · intro address hout
    exact cell_outside h'.holds.flat h'.holds.sp_range hwrite hout

/-- The page wraps between the two bytes of a return address. -/
theorem stack_refines_wrapping :
    let m : Machine := { memory := { sp := 1 } }
    let m' := m.afterOps [.push 0x0105, .call 0x1234, .fetch]
    m.memory.Flat ∧
      IdealStack.performAll [.push 0x0105, .call 0x1234, .fetch] ⟨[], 0x0600⟩ =
        some ⟨[saved 0x0600, value 5], 0x1235⟩ ∧
      m'.memory.sp = 0xFE ∧ m'.memory.pc = 0x1235 ∧
      (after (onMemory Memory.ret) m').memory.pc = 0x0600 := by
  have hrun : IdealStack.performAll [.push 0x0105, .call 0x1234, .fetch] ⟨[], 0x0600⟩ =
      some ⟨[saved 0x0600, value 5], 0x1235⟩ := by decide
  intro m
  have hflat : m.memory.Flat := Bus.flat_blank
  have hsp : 0 ≤ (1 : Int) ∧ (1 : Int) ≤ 0xFF := by decide
  have hpc : 0 ≤ (0x0600 : Int) ∧ (0x0600 : Int) ≤ 0xFFFF := by decide
  obtain ⟨hpointer, hcounter, -, hret, -⟩ := stack_refines (m := m) hflat hsp hpc hrun
  have hdepth : IdealStack.depth ⟨[saved 0x0600, value 5], 0x1235⟩ = 3 := rfl
  rw [hdepth] at hpointer
  exact ⟨hflat, hrun, hpointer, hcounter, (hret _ _ rfl).2⟩

end Machine

end Micro6502
