import Micro6502.Proofs.Effect
import Micro6502.System

namespace Micro6502

inductive Command where
  | step
  /-- At most so many steps. A run without a bound that ends is one with a bound. -/
  | run (bound : Int)
  /-- Applies an initial state. -/
  | restore (i : InitialState)
  | reset
  | setRegister (name : String) (n : Int)
  | normalize (n : Int)
  | setCarry (c : Bool)
  | write (address value : Int)
  | load (values : List Int) (start : Option Int)
  | press (key : Int)
  deriving Repr

namespace Command

open Machine

def act : Command → MachineM Unit
  | step => do let _ ← Machine.step
  | run bound => do let _ ← Machine.run bound.toNat
  | restore i => modify i.apply
  | reset => Machine.reset
  | setRegister name n => fun m =>
    match m.registers.setNamed name n with
    | .ok registers => .ok () { m with registers }
    | .error e => .error e m
  | normalize n => modifyRegisters (·.normalize n)
  | setCarry c => modifyRegisters (·.setCarry c)
  | write address value => Machine.write address value
  | load values start => do let _ ← onMemory (Memory.load values start)
  | press key => modify fun m =>
    { m with io := m.io.map fun io => { io with console := io.console.press key } }

def perform (m : Machine) (c : Command) : Machine := after c.act m

end Command

def Machine.performAll (m : Machine) (commands : List Command) : Machine :=
  commands.foldl Command.perform m

theorem Machine.performAll_cons (m : Machine) (c : Command) (rest : List Command) :
    m.performAll (c :: rest) = (c.perform m).performAll rest := rfl

namespace Command

open Machine

theorem perform_step (m : Machine) : perform m step = after Machine.step m :=
  after_discard _ m

theorem perform_run (m : Machine) (bound : Int) :
    perform m (run bound) = after (Machine.run bound.toNat) m :=
  after_discard _ m

/-- Writing a register by its name writes a register, or changes nothing. -/
theorem perform_setRegister (m : Machine) (name : String) (n : Int) :
    perform m (setRegister name n) = m ∨
      ∃ target, perform m (setRegister name n) =
        { m with registers := m.registers.set target n } := by
  simp only [perform, act, after, Registers.setNamed]
  cases Flag.ofName? name with
  | some flag => exact .inl rfl
  | none =>
    cases Register.ofName? name with
    | some target => exact .inr ⟨target, rfl⟩
    | none => exact .inl rfl

theorem perform_load (m : Machine) (values : List Int) (start : Option Int) :
    perform m (load values start) = after (onMemory (Memory.load values start)) m :=
  after_discard _ m

theorem perform_press (m : Machine) (key : Int) :
    perform m (press key) =
      { m with io := m.io.map fun io => { io with console := io.console.press key } } := rfl

/-- An invariant of the effects is one of the commands if the commands that no instruction can
imitate keep it. -/
theorem keeps {I : Machine → Prop} (hI : ∀ m m', I m → Effect m m' → I m')
    {m : Machine} (hm : I m) (c : Command)
    (hrestore : ∀ i, c = restore i → I (i.apply m))
    (hreset : c = reset → I (after Machine.reset m))
    (hload : ∀ values start, c = load values start →
      I (after (onMemory (Memory.load values start)) m))
    (hpress : ∀ key, c = press key → I (perform m (press key))) :
    I (perform m c) := by
  cases c with
  | step => exact (does_step.bind fun _ => .pure _).keeps hI hm
  | run bound => exact ((does_run _).bind fun _ => .pure _).keeps hI hm
  | restore i => exact hrestore i rfl
  | reset => exact hreset rfl
  | setRegister name n =>
    rcases perform_setRegister m name n with he | ⟨target, he⟩
    · rw [he]
      exact hm
    · rw [he]
      exact hI _ _ hm (.update _ (.set target n))
  | normalize n => exact hI _ _ hm (.update _ (.normalize n))
  | setCarry c => exact hI _ _ hm (.update _ (.carry c))
  | write address value => exact hI _ _ hm (.write address value)
  | load values start => exact perform_load m values start ▸ hload values start rfl
  | press key => exact hpress key rfl

/-- What every command keeps, all commands together keep. -/
theorem performAll_keeps {I : Machine → Prop} {commands : List Command}
    (h : ∀ m, I m → ∀ c ∈ commands, I (perform m c)) {m : Machine} (hm : I m) :
    I (m.performAll commands) := by
  induction commands generalizing m with
  | nil => exact hm
  | cons c rest ih =>
    exact ih (fun m hm c hc => h m hm c (.tail _ hc)) (h m hm c (.head _))

end Command

end Micro6502
