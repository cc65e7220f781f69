import Mathlib.Tactic.SplitIfs
import Micro6502.Proofs.Cycle
import Micro6502.Proofs.Effect
import Micro6502.Proofs.Sound

namespace Micro6502

/-- A change of the peripherals that neither reads nor writes show. -/
structure Io.Unseen (c : Io → Io) : Prop where
  supply : ∀ io address, (c io).supply address =
    (io.supply address).map fun answer => (answer.1, c answer.2)
  plot : ∀ io address value, Io.plot address value (c io) =
    match Io.plot address value io with
    | .ok () io => .ok () (c io)
    | .error e io => .error e (c io)

theorem Io.unseen_urged (b : Bool) :
    Io.Unseen fun io => { io with stopRequested := io.stopRequested || b } := by
  refine ⟨fun io address => ?_, fun io address value => ?_⟩
  · simp only [Io.supply]
    split_ifs <;> rfl
  · simp only [Io.plot]
    split_ifs <;> simp [Bool.or_right_comm]

namespace Machine

def urged (b : Bool) (m : Machine) : Machine :=
  { m with io := m.io.map fun io => { io with stopRequested := io.stopRequested || b } }

def calm (m : Machine) : Machine :=
  { m with io := m.io.map fun io => { io with stopRequested := false } }

def requested (m : Machine) : Bool := m.io.any (·.stopRequested)

def asks (m : Machine) : Bool := (after step m.calm).requested

variable {α β : Type} {g : Machine → Machine} {m m' : Machine} {act : MachineM α}
  {f : α → MachineM β}

@[simp] theorem calm_state (m : Machine) : m.calm.state = m.state := rfl

@[simp] theorem calm_isHalted (m : Machine) : m.calm.isHalted = m.isHalted := rfl

@[simp] theorem calm_urged (b : Bool) (m : Machine) : (m.urged b).calm = m.calm := by
  simp [calm, urged, Function.comp_def]

@[simp] theorem calm_calm (m : Machine) : m.calm.calm = m.calm := by
  simp [calm, Function.comp_def]

@[simp] theorem requested_calm (m : Machine) : m.calm.requested = false := by
  obtain ⟨memory, io, registers, table, status, steps⟩ := m
  cases io <;> rfl

theorem urged_calm (m : Machine) : m.calm.urged m.requested = m := by
  obtain ⟨memory, io, registers, table, status, steps⟩ := m
  cases io <;> simp [calm, urged, requested]

theorem calm_eq (h : m.requested = false) : m.calm = m := by
  obtain ⟨memory, io, registers, table, status, steps⟩ := m
  cases io with
  | none => rfl
  | some io =>
    have hio : io.stopRequested = false := h
    simp [calm, ← hio]

def changed (g : Machine → Machine) : EStateM.Result Fault Machine α → EStateM.Result Fault Machine α
  | .ok a m => .ok a (g m)
  | .error e m => .error e (g m)

/-- It does not matter whether the machine is changed before the action or after it. -/
def Commutes (g : Machine → Machine) (α : Type) (act : MachineM α) : Prop :=
  ∀ m, act (g m) = changed g (act m)

theorem read_eq (m : Machine) (address : Int) :
    read address m = match m.io.bind (·.supply (word address)) with
      | some (b, io) => .ok b { m with io := some io }
      | none => onMemory (Memory.read address) m := by
  rw [read, bind_ok (get_ok m)]
  cases m.io.bind (·.supply (word address)) <;> rfl

def changeIo (c : Io → Io) (m : Machine) : Machine := { m with io := m.io.map c }

namespace Commutes

variable {c : Io → Io}

theorem pure (a : α) : Commutes g α (Pure.pure a) := fun _ => rfl

theorem fail (e : Fault) : Commutes g α (throw e) := fun _ => rfl

theorem bind (hact : Commutes g α act) (hf : ∀ a, Commutes g β (f a)) :
    Commutes g β (act >>= f) := by
  intro m
  have hm := hact m
  cases hr : act m with
  | ok a m' =>
    rw [hr] at hm
    rw [bind_ok hm, bind_ok hr, hf]
  | error e m' =>
    rw [hr] at hm
    rw [bind_error hm, bind_error hr]
    rfl

theorem outcome_eq (h : Commutes g α act) (m : Machine) : outcome act (g m) = outcome act m := by
  rw [outcome, outcome, h m]
  cases act m <;> rfl

theorem after_eq (h : Commutes g α act) (m : Machine) : after act (g m) = g (after act m) := by
  rw [after, after, h m]
  cases act m <;> rfl

/-- Looking at a part of the machine that has nothing to do with the peripherals. -/
theorem look {γ : Type} (p : Machine → γ) (hp : ∀ m, p (changeIo c m) = p m) {f : γ → MachineM β}
    (hf : ∀ part, Commutes (changeIo c) β (f part)) :
    Commutes (changeIo c) β (get >>= fun m => f (p m)) := by
  intro m
  rw [bind_ok (get_ok _), bind_ok (get_ok _), hp, hf]

theorem onMemory (act : MemoryM α) : Commutes (changeIo c) α (onMemory act) := by
  intro m
  simp only [Machine.onMemory, changeIo]
  cases act m.memory <;> rfl

theorem read (hc : Io.Unseen c) (address : Int) : Commutes (changeIo c) Byte (read address) := by
  intro m
  have hsupply : (changeIo c m).io.bind (·.supply (word address)) =
      (m.io.bind (·.supply (word address))).map fun answer => (answer.1, c answer.2) := by
    cases hio : m.io with
    | none => simp [changeIo, hio]
    | some io => simp [changeIo, hio, hc.supply]
  rw [read_eq, read_eq, hsupply, onMemory]
  cases m.io.bind (·.supply (word address)) <;> rfl

theorem write (hc : Io.Unseen c) (address value : Int) :
    Commutes (changeIo c) Unit (write address value) := by
  refine (onMemory _).bind fun _ m => ?_
  obtain ⟨memory, io, registers, table, status, steps⟩ := m
  cases io with
  | none => rfl
  | some io =>
    simp only [changeIo, onIo, Option.map_some, hc.plot]
    cases Io.plot (word address) value io <;> rfl

theorem cyclic (hc : Io.Unseen c) : Cyclic (Commutes (changeIo c)) where
  pure := pure
  bind := bind
  registers _ hf := look Machine.registers (fun _ => rfl) hf
  counter _ hf := look (fun m => m.memory.pc) (fun _ => rfl) hf
  pointer _ hf := look (fun m => m.memory.sp) (fun _ => rfl) hf
  update _ _ _ := rfl
  read a _ := read hc a
  write := write hc
  fetch := onMemory _
  push _ := onMemory _
  pull := onMemory _
  pushPc := onMemory _
  ret := onMemory _
  jump _ := onMemory _
  point _ := onMemory _
  slot opcode _ hf := look (fun m => m.table.get? opcode) (fun _ => rfl) hf
  peek _ _ := onMemory _
  fail := fail
  strand _ m := by simp [Mnemonic.stranded, changeIo, changed]
  halt _ _ _ := rfl

/-- Such a change stays what it is over a step. -/
theorem step (hc : Io.Unseen c) : Commutes (changeIo c) Snapshot step := by
  have hcycle (place : Int) : Commutes (changeIo c) Snapshot (do
      let opcode ← Mode.fetch
      let d ← decode opcode place
      execute d
      report d) :=
    (cyclic hc).fetch.bind fun opcode => ((cyclic hc).decode opcode place).bind fun d =>
      ((cyclic hc).execute d).bind fun _ _ => rfl
  intro m
  cases hm : m.isHalted with
  | true =>
    rw [step_halted hm, step_halted (m := changeIo c m) hm]
    rfl
  | false =>
    rw [step_running hm, step_running (m := changeIo c m) hm]
    exact hcycle m.memory.pc m.cleared

end Commutes

/-- A step from a machine with a request to stop is the step from the machine without it. -/
theorem step_urged (b : Bool) : Commutes (urged b) Snapshot step :=
  .step (Io.unseen_urged b)

theorem outcome_step_calm (m : Machine) : outcome step m.calm = outcome step m := by
  rw [← (step_urged m.requested).outcome_eq, urged_calm]

theorem calm_after_step (m : Machine) : (after step m).calm = (after step m.calm).calm := by
  rw [← calm_urged m.requested (after step m.calm), ← (step_urged m.requested).after_eq, urged_calm]

end Machine

end Micro6502
