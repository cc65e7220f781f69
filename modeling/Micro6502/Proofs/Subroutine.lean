import Micro6502.Proofs.Replay
import Micro6502.Proofs.WellFormed

namespace Micro6502.Machine

variable {m m' : Machine} {i j : Nat} {mode : Mode}

structure Executes (m : Machine) (i : Instruction) : Prop where
  running : m.status = .running
  found : m.table.get? (m.memory.cell m.memory.pc) = some i

structure Calls (m m' : Machine) : Prop where
  status : m'.status = .running
  pc : m'.memory.pc =
    wordOf (m.memory.cell (m.memory.pc + 1)) (m.memory.cell (m.memory.pc + 2))
  sp : m'.memory.sp = (m.memory.sp - 2) % 0x100
  cell : ∀ a, m'.memory.cell a =
    if word a = word (0x0100 + (m.memory.sp - 1) % 0x100) then
      byte (wordBytes (word (m.memory.pc + 3))).2
    else if word a = word (0x0100 + m.memory.sp) then
      byte (wordBytes (word (m.memory.pc + 3))).1
    else m.memory.cell a

/-- An instruction that does not end the program does what its body does. -/
theorem after_executes {i : Instruction} {d : Decoded} {m₁ m₂ : Machine}
    (hstep : step m = (execute d >>= fun _ => report d) m₁) (hd : d.instruction = i)
    (hbrk : i.mnemonic ≠ .brk) (hbody : i.mnemonic.execute d.address m₁ = .ok () m₂) :
    ∃ s, step m = .ok s { m₂.cleared with steps := m₂.steps + 1 } ∧ s.decoded = some d := by
  subst hd
  have hexecute : execute d m₁ = .ok () m₂ := by
    rw [execute, bind_ok hbody, if_neg hbrk]
    rfl
  exact ⟨_, hstep.trans ((bind_ok hexecute).trans (report_eq d m₂)), rfl⟩

/-- The call on a machine that has taken its operand. -/
theorem call_flat (h : m.memory.Flat) (target : Int) :
    Mnemonic.call (some target) m = .ok () { m with
      memory := { (m.memory.pushed (wordBytes m.memory.pc).1).pushed (wordBytes m.memory.pc).2 with
        pc := word target } } := by
  rw [Mnemonic.call, bind_ok (onMemory_ok (Memory.pushPc_flat h))]
  rfl

theorem step_calls (h : m.memory.Flat) (he : m.Executes ⟨.jsr, .absolute⟩) :
    Calls m (after step m) := by
  obtain ⟨d, m₁, hstep, h₁, hd⟩ := step_defined h he.running he.found
  have haddress : d.address =
      some (wordOf (m.memory.cell (m.memory.pc + 1)) (m.memory.cell (m.memory.pc + 2))) := by
    have hoperand : d.operand =
        [m.memory.cell (m.memory.pc + 1), m.memory.cell (m.memory.pc + 2)] := by
      have hnext : m.memory.pc + 1 + 1 = m.memory.pc + 2 := by omega
      rw [hd.operand, ← hnext]
      rfl
    exact hd.direct _ (by rw [hoperand]; rfl)
  have hflat := h₁.flat h
  have hbody := call_flat hflat
    (wordOf (m.memory.cell (m.memory.pc + 1)) (m.memory.cell (m.memory.pc + 2)))
  rw [← haddress] at hbody
  obtain ⟨s, hs, -⟩ := after_executes hstep hd.instruction (by decide) hbody
  rw [after_ok hs]
  refine ⟨h₁.status.trans he.running, ?_, ?_, ?_⟩
  · exact word_of_range (Mode.wordOf_range _ _).1 (Mode.wordOf_range _ _).2
  · change ((m₁.memory.sp - 1) % 0x100 - 1) % 0x100 = _
    rw [h₁.sp]
    omega
  · intro a
    refine (Memory.cell_cleared _ a).trans ?_
    refine (Memory.cell_pushed (hflat.pushed _) _ a).trans ?_
    rw [Memory.cell_pushed hflat, h₁.cell, h₁.sp]
    change (if word a = word (0x0100 + (m₁.memory.sp - 1) % 0x100) then
      byte (wordBytes m₁.memory.pc).2 else _) = _
    rw [h₁.sp, h₁.pc]
    rfl

/-- A return goes on at the address that it finds on the stack, whatever its mode. -/
theorem step_goesBack (h : m.memory.Flat) (he : m.Executes ⟨.rts, mode⟩) :
    (∃ s, outcome step m = .ok s) ∧
    (after step m).memory.pc =
      wordOf (m.memory.cell (0x0100 + ((m.memory.sp + 1) % 0x100 + 1) % 0x100))
        (m.memory.cell (0x0100 + (m.memory.sp + 1) % 0x100)) ∧
    (after step m).memory.sp = ((m.memory.sp + 1) % 0x100 + 1) % 0x100 := by
  obtain ⟨d, m₁, hstep, h₁, hd⟩ := step_defined h he.running he.found
  have hbody : Mnemonic.rts.execute d.address m₁ = _ :=
    onMemory_ok (Memory.ret_eq (h₁.flat h))
  obtain ⟨s, hs, -⟩ := after_executes hstep hd.instruction nofun hbody
  rw [after_ok hs]
  refine ⟨⟨s, outcome_ok hs⟩, ?_, ?_⟩
  · rw [← h₁.cell, ← h₁.cell, ← h₁.sp]
    exact word_of_range (Mode.wordOf_range _ _).1 (Mode.wordOf_range _ _).2
  · rw [← h₁.sp]
    rfl

/-- The bytes that a call has left on the stack make up the address behind it. -/
theorem Calls.wordOf_stack (h : Calls m m') :
    wordOf (m'.memory.cell (0x0100 + m.memory.sp))
      (m'.memory.cell (0x0100 + (m.memory.sp - 1) % 0x100)) = word (m.memory.pc + 3) := by
  have hne : word (0x0100 + m.memory.sp) ≠
      word (0x0100 + (m.memory.sp - 1) % 0x100) := by
    unfold word
    omega
  rw [h.cell, h.cell, if_neg hne, if_pos rfl, if_pos rfl, wordOf_bytes, word_word]

/-- A return that meets the stack pointer of a call, and the bytes that the call has pushed, goes on
behind the call, whatever has happened in between. -/
theorem call_returns (h : m.WellFormed) (hij : i < j)
    (hcall : (m.stepped i).Executes ⟨.jsr, .absolute⟩) (hret : (m.stepped j).Executes ⟨.rts, mode⟩)
    (hsp : (m.stepped j).memory.sp = ((m.stepped i).memory.sp - 2) % 0x100)
    (hkept : ∀ l, i < l → l < j → ∀ a ∈ (m.stepped l).accesses, a.kind = .write →
      a.address ≠ 0x0100 + (m.stepped i).memory.sp ∧
      a.address ≠ 0x0100 + ((m.stepped i).memory.sp - 1) % 0x100) :
    (∃ s, outcome step (m.stepped j) = .ok s) ∧
    (m.stepped (j + 1)).memory.pc = word ((m.stepped i).memory.pc + 3) ∧
    (m.stepped (j + 1)).memory.sp = (m.stepped i).memory.sp := by
  have hi : (m.stepped i).WellFormed := stepped_keeps (fun _ _ => WellFormed.effect) h i
  have hcalls : Calls (m.stepped i) (m.stepped (i + 1)) :=
    stepped_succ m i ▸ step_calls hi.flat hcall
  -- the frame over the steps in between: neither byte changes
  have hframe (address : Int) (haddress : 0 ≤ address ∧ address ≤ 0xFFFF)
      (hwrites : ∀ l, i < l → l < j → ∀ a ∈ (m.stepped l).accesses, a.kind = .write →
        a.address ≠ address) :
      (m.stepped j).memory.cell address = (m.stepped (i + 1)).memory.cell address := by
    refine stepped_cell_eq h.flat hij fun l hl hlj a ha hwrite => ?_
    rw [word_of_range haddress.1 haddress.2]
    exact hwrites l hl hlj a ha hwrite
  have hlo := hframe (0x0100 + (m.stepped i).memory.sp)
    (by have := hi.sp; omega)
    fun l hl hlj a ha hwrite => (hkept l hl hlj a ha hwrite).1
  have hhi := hframe (0x0100 + ((m.stepped i).memory.sp - 1) % 0x100)
    (by omega)
    fun l hl hlj a ha hwrite => (hkept l hl hlj a ha hwrite).2
  obtain ⟨hok, hpc, hpointer⟩ := step_goesBack (stepped_steady h.flat j).flat hret
  have hfirst : ((m.stepped j).memory.sp + 1) % 0x100 = ((m.stepped i).memory.sp - 1) % 0x100 := by
    omega
  have hsecond : (((m.stepped i).memory.sp - 1) % 0x100 + 1) % 0x100 = (m.stepped i).memory.sp := by
    have := hi.sp
    omega
  rw [hfirst, hsecond] at hpc hpointer
  rw [stepped_succ]
  refine ⟨hok, ?_, hpointer⟩
  rw [hpc, hlo, hhi, hcalls.wordOf_stack]

/-- A call of the very next instruction, which returns. The stack pointer wraps between the bytes. -/
theorem call_returns_wrapping :
    let m : Machine :=
      { memory := { Memory.loaded {} 0x0600 [0x20, 0x03, 0x06, 0x60] with sp := 0 } }
    m.WellFormed ∧ (m.stepped 0).Executes ⟨.jsr, .absolute⟩ ∧
      (m.stepped 1).Executes ⟨.rts, .implicit⟩ ∧ (m.stepped 1).memory.sp = 0xFE ∧
      (m.stepped 2).memory.pc = 0x0603 ∧ (m.stepped 2).memory.sp = 0 := by
  have hblank : Memory.Flat {} := Bus.flat_blank
  have hflat := hblank.loaded 0x0600 [0x20, 0x03, 0x06, 0x60]
  have hlength : ([0x20, 0x03, 0x06, 0x60] : List Int).length ≤ 0x10000 := by decide
  have hcell := Memory.cell_loaded_at hblank 0x0600 hlength
  have hpc : (Memory.loaded {} 0x0600 [0x20, 0x03, 0x06, 0x60]).pc = 0x0600 := by
    rw [Memory.loaded_eq]
  generalize Memory.loaded {} 0x0600 [0x20, 0x03, 0x06, 0x60] = memory at hflat hcell hpc ⊢
  intro m
  have hmpc : m.memory.pc = 0x0600 := hpc
  have hm : m.WellFormed :=
    ⟨⟨by rw [hmpc]; decide, WellFormed.byte_range 0, Registers.exclusive_fresh⟩, hflat⟩
  have hcall : m.Executes ⟨.jsr, .absolute⟩ := by
    refine ⟨rfl, ?_⟩
    have hopcode : m.memory.cell 0x0600 = 0x20 := hcell ⟨0, by decide⟩
    rw [hmpc, hopcode]
    rfl
  have hcalls : Calls m (m.stepped 1) := stepped_one m ▸ step_calls hm.flat hcall
  have hpc' : (m.stepped 1).memory.pc = 0x0603 := by
    have hlo : m.memory.cell (0x0600 + 1) = 0x03 := hcell ⟨1, by decide⟩
    have hhi : m.memory.cell (0x0600 + 2) = 0x06 := hcell ⟨2, by decide⟩
    refine hcalls.pc.trans ?_
    rw [hmpc, hlo, hhi]
    rfl
  have hret : (m.stepped 1).Executes ⟨.rts, .implicit⟩ := by
    refine ⟨hcalls.status, ?_⟩
    have hopcode : (m.stepped 1).memory.cell 0x0603 = 0x60 := by
      refine (hcalls.cell 0x0603).trans ?_
      have hsp : m.memory.sp = 0 := rfl
      rw [hsp, if_neg (by decide), if_neg (by decide)]
      exact hcell ⟨3, by decide⟩
    rw [hpc', hopcode, (stepped_steady hm.flat 1).table]
    rfl
  have hsp : (m.stepped 1).memory.sp = 0xFE := hcalls.sp
  obtain ⟨-, hback, hpointer⟩ := call_returns (i := 0) hm (by decide) hcall hret hsp
    fun l hl hl' => by omega
  refine ⟨hm, hcall, hret, hsp, hback.trans ?_, hpointer⟩
  change word (m.memory.pc + 3) = 0x0603
  rw [hmpc]
  rfl

end Micro6502.Machine
