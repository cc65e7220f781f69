import Micro6502.Proofs.Run
import Micro6502.Proofs.StepOutcome

namespace Micro6502

namespace Access

def apply (cells : Int → Byte) (a : Access) (address : Int) : Byte :=
  if a.kind = .write ∧ word address = a.address then byte a.data else cells address

def replay (cells : Int → Byte) (log : List Access) : Int → Byte := log.foldl apply cells

/-- A log leads from bytes to bytes, and its reads tell what they found on the way. -/
structure Replays (cells : Int → Byte) (log : List Access) (cells' : Int → Byte) : Prop where
  ends : replay cells log = cells'
  faithful : ∀ before a rest, log = before ++ a :: rest → a.kind = .read →
    a.data = ((replay cells before a.address : Byte) : Int)

variable {cells cells' cells₁ cells₂ : Int → Byte} {log log' : List Access}

theorem replay_append (cells : Int → Byte) (log log' : List Access) :
    replay cells (log ++ log') = replay (replay cells log) log' :=
  List.foldl_append

theorem apply_read (cells : Int → Byte) (address data : Int) :
    apply cells ⟨.read, address, data⟩ = cells := by
  funext other
  simp [apply]

theorem Replays.nil (cells : Int → Byte) : Replays cells [] cells :=
  ⟨rfl, fun before a rest h => by simp at h⟩

/-- A log of one access is faithful if a read has found its byte. -/
theorem Replays.single {a : Access} (h : a.kind = .read → a.data = (cells a.address : Byte)) :
    Replays cells [a] (apply cells a) := by
  refine ⟨rfl, fun before b rest hlog hb => ?_⟩
  cases before with
  | nil =>
    cases hlog
    exact h hb
  | cons c before => simp at hlog

/-- A log goes on where another one ends. -/
theorem Replays.trans (h : Replays cells log cells₁) (h' : Replays cells₁ log' cells₂) :
    Replays cells (log ++ log') cells₂ := by
  refine ⟨by rw [replay_append, h.ends, h'.ends], fun before a rest hlog ha => ?_⟩
  rcases List.append_eq_append_iff.mp hlog with ⟨more, rfl, hlog'⟩ | ⟨more, hbefore, hmore⟩
  · rw [replay_append, h.ends]
    exact h'.faithful more a rest hlog' ha
  · cases more with
    | nil =>
      rw [List.append_nil] at hbefore
      rw [← hbefore, h.ends]
      exact h'.faithful [] a rest hmore.symm ha
    | cons b more =>
      cases hmore
      exact h.faithful before a more hbefore ha

/-- The first access of a log, if it reads, has found the byte that was there before. -/
theorem Replays.head {a : Access} (h : Replays cells (a :: log) cells') (ha : a.kind = .read) :
    a.data = (cells a.address : Byte) :=
  h.faithful [] a log rfl ha

/-- Where a log does not write, the byte stays as it is. -/
theorem Replays.cell_eq (h : Replays cells log cells') {address : Int}
    (hkept : ∀ a ∈ log, a.kind = .write → a.address ≠ word address) :
    cells' address = cells address := by
  rw [← h.ends]
  clear h
  induction log generalizing cells with
  | nil => rfl
  | cons a rest ih =>
    have hrest : ∀ b ∈ rest, b.kind = .write → b.address ≠ word address :=
      fun b hb => hkept b (.tail _ hb)
    refine (ih hrest).trans (if_neg ?_)
    rintro ⟨hwrite, haddress⟩
    exact hkept a (.head _) hwrite haddress.symm

end Access

open Access

namespace Bus

/-- What was added to the log tells how the bytes have changed. -/
structure Tells (b b' : Bus) : Prop where
  flat : b'.Flat
  told : ∃ log, b'.log.toList = b.log.toList ++ log ∧ Replays b.cell log b'.cell

variable {b b₁ b₂ : Bus}

theorem Tells.refl (h : b.Flat) : b.Tells b := ⟨h, [], by simp, .nil _⟩

theorem Tells.trans (h : b.Tells b₁) (h' : b₁.Tells b₂) : b.Tells b₂ := by
  obtain ⟨log, hlog, hreplay⟩ := h.told
  obtain ⟨log', hlog', hreplay'⟩ := h'.told
  exact ⟨h'.flat, log ++ log', by rw [hlog', hlog, List.append_assoc], hreplay.trans hreplay'⟩

theorem Tells.read (h : b.Flat) (address : Int) :
    b.Tells { b with log := b.log.push ⟨.read, word address, b.cell address⟩ } := by
  refine ⟨h, [⟨.read, word address, b.cell address⟩], by simp, ?_⟩
  have hcell : Bus.cell { b with log := b.log.push ⟨.read, word address, b.cell address⟩ } =
      apply b.cell ⟨.read, word address, b.cell address⟩ := by
    rw [apply_read]
    exact funext fun other => cell_log b.mappings _ _ other
  rw [hcell]
  exact Replays.single fun _ => by rw [cell_word]

theorem Tells.write (h : b.Flat) (address : Int) (value : Byte) :
    b.Tells (after (write address value) b) := by
  obtain ⟨b', hwrite, hflat, hlog, hcell⟩ := write_flat h address value
  rw [after_ok hwrite]
  refine ⟨hflat, [⟨.write, word address, value⟩], by simp [hlog], ?_⟩
  have hends : apply b.cell ⟨.write, word address, value⟩ = b'.cell := by
    funext other
    simp only [apply, hcell, true_and, byte_val]
  exact hends ▸ Replays.single nofun

end Bus

namespace Machine

variable {m m' : Machine} {α β : Type} {act : MachineM α} {f : α → MachineM β}

/-- On flat memory the action logs all that it does to the bytes. -/
def Logs (α : Type) (act : MachineM α) : Prop :=
  ∀ m : Machine, m.memory.Flat → m.memory.bus.Tells (after act m).memory.bus

namespace Logs

theorem bind (h : Logs α act) (hf : ∀ a, Logs β (f a)) : Logs β (act >>= f) := by
  intro m hm
  have hact := h m hm
  rw [after_bind]
  cases hr : act m with
  | ok a m₁ =>
    rw [after_ok hr] at hact
    exact hact.trans (hf a m₁ hact.flat)
  | error e m₁ =>
    rw [after_error hr] at hact
    exact hact

/-- An action that does not touch the bus. -/
theorem aside (h : ∀ m, (after act m).memory.bus = m.memory.bus) : Logs α act :=
  fun m hm => by
    rw [h m]
    exact .refl hm

theorem push (value : Int) : Logs Unit (onMemory (Memory.push value)) := by
  intro m hm
  rw [after_ok (push_flat hm value)]
  exact .write hm (stackBase + m.memory.sp) (byte value)

theorem pull : Logs Byte (onMemory Memory.pull) := by
  intro m hm
  rw [after_ok (pull_flat hm)]
  exact .read hm _

theorem read (address : Int) : Logs Byte (read address) := by
  intro m hm
  rw [after_ok (read_flat hm address)]
  rcases m.asked_cases address with ⟨io, random, -, he⟩ | he
  · rw [he]
    exact .refl hm
  · rw [he]
    exact .read hm address

theorem write (address value : Int) : Logs Unit (write address value) := by
  intro m hm
  rw [after_write hm]
  exact .write hm address (byte value)

theorem cyclic : Cyclic Logs where
  pure _ := aside fun _ => rfl
  bind := bind
  registers _ hf m := hf m.registers m
  counter _ hf m := hf m.memory.pc m
  pointer _ hf m := hf m.memory.sp m
  update _ _ := aside fun _ => rfl
  read address _ := read address
  write := write
  fetch m hm := by
    rw [after_ok (fetch_flat hm)]
    exact .read hm m.memory.pc
  push := push
  pull := pull
  pushPc := by
    rw [Memory.pushPc, onMemory_bind]
    refine bind (aside fun _ => rfl) fun memory => ?_
    rw [onMemory_bind]
    exact (push _).bind fun _ => push _
  ret := by
    rw [Memory.ret, onMemory_bind]
    refine pull.bind fun hi => ?_
    rw [onMemory_bind]
    exact pull.bind fun lo => aside fun _ => rfl
  jump _ := aside fun _ => rfl
  point _ := aside fun _ => rfl
  slot opcode _ hf m := hf (m.table.get? opcode) m
  peek start count m hm := by
    rw [after_peekMany hm]
    exact .refl hm
  fail _ := aside fun _ => rfl
  strand _ := aside fun _ => rfl
  halt _ _ := aside fun _ => rfl

end Logs

/-- The accesses of a step: those that its snapshot tells of, or those that it leaves in the log when
it fails. -/
def accesses (m : Machine) : List Access :=
  match step m with
  | .ok s _ => s.accesses
  | .error _ m' => m'.memory.bus.log.toList

theorem accesses_ok {s : Snapshot} (h : outcome step m = .ok s) : m.accesses = s.accesses := by
  rw [accesses, outcome_eq_ok.mp h]

theorem accesses_halted (h : m.isHalted = true) : m.accesses = [] := by
  rw [accesses, step_halted h]

/-- A running step logs the fetch of its opcode and then all that it does to the bytes. -/
theorem accesses_running (h : m.memory.Flat) (hr : m.status = .running) :
    (∃ rest, m.accesses = ⟨.read, word m.memory.pc, m.memory.cell m.memory.pc⟩ :: rest) ∧
      Replays m.memory.cell m.accesses (after step m).memory.cell := by
  have hflat : m.primed.memory.Flat := h
  have hfetch : m.cleared.memory.bus.Tells m.primed.memory.bus :=
    .read (b := m.cleared.memory.bus) h m.memory.pc
  have hcarry := Logs.cyclic.carryOut (m.memory.cell m.memory.pc) m.memory.pc m.primed hflat
  have hstep : m.accesses = (after (carryOut (m.memory.cell m.memory.pc) m.memory.pc)
        m.primed).memory.bus.log.toList ∧
      (after step m).memory.cell = (after (carryOut (m.memory.cell m.memory.pc) m.memory.pc)
        m.primed).memory.cell := by
    cases hc : carryOut (m.memory.cell m.memory.pc) m.memory.pc m.primed with
    | ok d m' =>
      rw [after_ok hc, accesses, after, step_fetched h hr, bind_ok hc]
      exact ⟨rfl, funext m'.memory.cell_cleared⟩
    | error e m' =>
      rw [after_error hc, accesses, after, step_fetched h hr, bind_error hc]
      exact ⟨rfl, rfl⟩
  obtain ⟨hlog, hcell⟩ := hstep
  rw [hlog, hcell]
  constructor
  · obtain ⟨rest, hrest, -⟩ := hcarry.told
    refine ⟨rest, hrest.trans ?_⟩
    rw [← m.memory.cell_cleared m.memory.pc]
    rfl
  · obtain ⟨log, hall, hreplay⟩ := (hfetch.trans hcarry).told
    rw [hall]
    have hbefore : m.cleared.memory.bus.cell = m.memory.cell := funext m.memory.cell_cleared
    exact hbefore ▸ hreplay

/-- What a step logs leads from the bytes before it to the bytes after it. -/
theorem step_replays (h : m.memory.Flat) :
    Replays m.memory.cell m.accesses (after step m).memory.cell := by
  cases hm : m.isHalted with
  | true =>
    have hsame : (after step m).memory.cell = m.memory.cell := by
      rw [after_ok (step_halted hm)]
      exact funext m.memory.cell_cleared
    rw [accesses_halted hm, hsame]
    exact .nil _
  | false => exact (accesses_running h (running_iff.mp hm)).2

/-- A step that fails for want of an opcode changes no byte. -/
theorem cell_stumbled {e : Fault} (h : m.memory.Flat) (he : outcome step m = .error e)
    (hkind : e.kind = .decode) : (after step m).memory.cell = m.memory.cell := by
  rw [after_step_stumbled h he hkind]
  funext address
  exact (Memory.cell_noted _ _ _).trans (m.memory.cell_cleared address)

/-- Logs of steps, one after the other, are the log of all of them. -/
theorem stepped_replays {log : Nat → List Access} {n : Nat}
    (h : ∀ i < n, Replays (m.stepped i).memory.cell (log i) (m.stepped (i + 1)).memory.cell) :
    Replays m.memory.cell ((List.range n).flatMap log) (m.stepped n).memory.cell := by
  induction n with
  | zero => exact .nil _
  | succ n ih =>
    rw [List.range_succ, List.flatMap_append, List.flatMap_singleton]
    exact (ih fun i hi => h i (by omega)).trans (h n (Nat.lt_succ_self n))

/-- A byte that no step writes stays as it is. -/
theorem stepped_cell_eq {i j : Nat} {address : Int} (h : m.memory.Flat) (hij : i ≤ j)
    (hkept : ∀ l, i ≤ l → l < j → ∀ a ∈ (m.stepped l).accesses, a.kind = .write →
      a.address ≠ word address) :
    (m.stepped j).memory.cell address = (m.stepped i).memory.cell address := by
  induction hij with
  | refl => rfl
  | @step j hij ih =>
    have hlast := (step_replays (stepped_steady h j).flat).cell_eq
      (hkept j hij (Nat.lt_succ_self j))
    rw [stepped_succ, hlast]
    exact ih fun l hl hlj => hkept l hl (Nat.lt_succ_of_lt hlj)

/-- The log of the bus is a record of the run. The writes in the logs of `n` steps, carried out on the
bytes before them, give the bytes after them, and every read tells of the byte that was there by then.
The snapshots alone tell as much if no step fails but for want of an opcode. The log of a step does
not depend on what was logged before; it begins with the fetch of the opcode, and on a halted
processor it is empty. -/
theorem trace_replays (h : m.memory.Flat) (n : Nat) :
    Replays m.memory.cell ((List.range n).flatMap fun i => (m.stepped i).accesses)
      (m.stepped n).memory.cell ∧
    ((∀ i < n, ∀ e, outcome step (m.stepped i) = .error e → e.kind = .decode) →
      Replays m.memory.cell ((m.snapshots n).flatMap (·.accesses)) (m.stepped n).memory.cell) ∧
    ∀ i s, outcome step (m.stepped i) = .ok s →
      Replays (m.stepped i).memory.cell s.accesses (m.stepped (i + 1)).memory.cell ∧
      (∀ p, p.cleared = (m.stepped i).cleared → outcome step p = .ok s) ∧
      ((m.stepped i).isHalted = true → s.decoded = none ∧ s.accesses = []) ∧
      ((m.stepped i).isHalted = false → ∃ d rest, s.decoded = some d ∧
        s.accesses = ⟨.read, word (m.stepped i).memory.pc, d.opcode⟩ :: rest) := by
  have hflat (i : Nat) : (m.stepped i).memory.Flat := (stepped_steady h i).flat
  have hstep (i : Nat) : Replays (m.stepped i).memory.cell (m.stepped i).accesses
      (m.stepped (i + 1)).memory.cell :=
    stepped_succ m i ▸ step_replays (hflat i)
  refine ⟨stepped_replays fun i _ => hstep i, fun hfail => ?_, fun i s hs => ⟨?_, ?_, ?_, ?_⟩⟩
  · rw [snapshots, List.flatMap_assoc]
    refine stepped_replays fun i hi => ?_
    cases ho : outcome step (m.stepped i) with
    | ok s =>
      have hlog := hstep i
      rw [accesses_ok ho] at hlog
      simpa [Except.toOption] using hlog
    | error e =>
      -- the log is lost with the snapshot, but there is nothing in it but the fetch
      have hsame := cell_stumbled (hflat i) ho (hfail i hi e ho)
      rw [stepped_succ, hsame]
      exact .nil _
  · exact accesses_ok hs ▸ hstep i
  · intro p hp
    rw [outcome, step_congr hp]
    exact hs
  · intro hm
    rw [outcome_ok (step_halted hm)] at hs
    cases hs
    exact ⟨rfl, rfl⟩
  · intro hm
    have hr := running_iff.mp hm
    obtain ⟨rest, hrest⟩ := (accesses_running (hflat i) hr).1
    cases ht : (m.stepped i).table.get? ((m.stepped i).memory.cell (m.stepped i).memory.pc) with
    | none => simp [step_undefined (hflat i) hr ht] at hs
    | some instruction =>
      obtain ⟨d, m₁, hexecute, -, hd⟩ := step_defined (hflat i) hr ht
      have hok := outcome_eq_ok.mp hs
      rw [hexecute] at hok
      obtain ⟨m₂, -, -, rfl⟩ := execute_report_ok hok
      exact ⟨d, rest, rfl, hd.opcode ▸ (accesses_ok hs).symm.trans hrest⟩

/-- An instruction that increments its own opcode. -/
theorem trace_replays_rewriting :
    let m : Machine := { memory := Memory.loaded {} 0x0600 [0xEE, 0x00, 0x06] }
    m.memory.Flat ∧
      (∀ i < 2, ∀ e, outcome step (m.stepped i) = .error e → e.kind = .decode) ∧
      Replays m.memory.cell ((m.snapshots 2).flatMap (·.accesses)) (m.stepped 2).memory.cell ∧
      ∃ s rest, outcome step m = .ok s ∧ s.accesses = ⟨.read, 0x0600, 0xEE⟩ :: rest := by
  have hblank : Memory.Flat {} := Bus.flat_blank
  have hflat := hblank.loaded 0x0600 [0xEE, 0x00, 0x06]
  have hcell : (Memory.loaded {} 0x0600 [0xEE, 0x00, 0x06]).cell 0x0600 = 0xEE :=
    Memory.cell_loaded_at hblank 0x0600 (by decide) ⟨0, by decide⟩
  have hpc : (Memory.loaded {} 0x0600 [0xEE, 0x00, 0x06]).pc = 0x0600 := by
    rw [Memory.loaded_eq]
  generalize Memory.loaded {} 0x0600 [0xEE, 0x00, 0x06] = memory at hflat hcell hpc ⊢
  intro m
  have hsound : m.Sound := ⟨hflat, by simp [m]⟩
  have hfail : ∀ i < 2, ∀ e, outcome step (m.stepped i) = .error e → e.kind = .decode := by
    intro i _ e he
    have hi : (m.stepped i).Sound := stepped_keeps (fun _ _ => Sound.effect) hsound i
    rw [step_standard hi (stepped_steady hflat i).table he]
    rfl
  have ht : m.table.get? (m.memory.cell m.memory.pc) = some ⟨.inc, .absolute⟩ := by
    change OpcodeTable.standard.get? (memory.cell memory.pc) = _
    rw [hpc, hcell]
    rfl
  obtain ⟨s, hs⟩ := step_returns hsound rfl ht rfl
  obtain ⟨-, hreplay, hall⟩ := trace_replays (m := m) hflat 2
  obtain ⟨hfirst, -, -, hrunning⟩ := hall 0 s hs
  obtain ⟨d, rest, -, hrest⟩ := hrunning rfl
  rw [stepped_zero] at hfirst hrest
  rw [hrest] at hfirst
  have hopcode : (d.opcode : Int) = (m.memory.cell (word m.memory.pc) : Byte) := hfirst.head rfl
  have hplace : word m.memory.pc = 0x0600 := by
    rw [show m.memory.pc = 0x0600 from hpc]
    rfl
  rw [hplace, show m.memory.cell 0x0600 = 0xEE from hcell] at hopcode
  refine ⟨hflat, hfail, hreplay hfail, s, rest, hs, ?_⟩
  rw [hrest, hplace, hopcode]
  rfl

end Machine

end Micro6502
