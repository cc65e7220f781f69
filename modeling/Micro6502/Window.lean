import Micro6502.Program
import Micro6502.Step
import Micro6502.System
import Micro6502.Toolkit
import Micro6502.View

namespace Micro6502

inductive Action where
  | run | pause | step | reset
  deriving DecidableEq, Repr

namespace Action

def all : List Action := [run, pause, step, reset]

def name : Action → String
  | run => "Run"
  | pause => "Pause"
  | step => "Step"
  | reset => "Reset"

def ofName? (s : String) : Option Action := all.find? (·.name == s)

end Action

structure Window (T : Toolkit) where
  machine : Machine
  config : SystemConfig
  program : List Byte
  view : View
  timer : T.Timer
  buttons : Action → T.Button
  label : String := ""
  /-- The last message about a stumble of the processor. -/
  message : String := ""
  /-- How often the view was given the focus. -/
  focused : Nat := 0

abbrev WindowM (T : Toolkit) := EStateM Fault (Window T)

def Machine.statusLine (m : Machine) (running : Bool) : String :=
  let r := m.registers
  let state := if m.isHalted then "HALTED" else if running then "RUNNING" else "PAUSED"
  s!"{state}  PC=${Text.Hex.upper 4 m.memory.pc} A=${Text.Hex.upper 2 r.a} " ++
    s!"X=${Text.Hex.upper 2 r.x} Y=${Text.Hex.upper 2 r.y} " ++
    s!"SP=${Text.Hex.upper 4 m.state.stackAddress} {r.flagLetters [.n, .z, .c]}  steps={m.steps}"

namespace Window

variable {T : Toolkit}

def title : String := "snake6502"

def running (w : Window T) : Bool := T.isActive w.timer

def isEnabled (w : Window T) (a : Action) : Bool := T.isEnabled (w.buttons a)

def status (w : Window T) : String := w.machine.statusLine w.running

def showStatus (w : Window T) : Window T := { w with label := w.status }

def showActions (w : Window T) (running : Bool) : Window T :=
  let ready := !running && !w.machine.isHalted
  { w with buttons := fun
    | .run => T.setEnabled ready (w.buttons .run)
    | .pause => T.setEnabled running (w.buttons .pause)
    | .step => T.setEnabled ready (w.buttons .step)
    | .reset => w.buttons .reset }

def create (T : Toolkit) (machine : Machine) (program : List Byte) (config : SystemConfig) :
    Window T :=
  let timer := T.newTimer config.display.tickInterval
  let buttons (a : Action) := T.newButton a.name
  let w : Window T :=
    { machine, config, program, view := { scale := config.display.scale }, timer, buttons }
  (w.showActions false).showStatus

def ofConfig (T : Toolkit) (config : SystemConfig) (program : List Byte) (random : Random)
    (table : OpcodeTable) : Except Fault (Window T) :=
  let m := config.build (.screen config.screen) random table
  match Machine.onMemory (Program.load program (some config.origin)) m with
  | .ok _ m => .ok (create T m program config)
  | .error e _ => .error e

def onMachine {α : Type} (act : MachineM α) : WindowM T α := fun w =>
  let ⟨machine, config, program, view, timer, buttons, label, message, focused⟩ := w
  match act machine with
  | .ok a machine =>
    .ok a ⟨machine, config, program, view, timer, buttons, label, message, focused⟩
  | .error e machine =>
    .error e ⟨machine, config, program, view, timer, buttons, label, message, focused⟩

def refresh : WindowM T Bool := do
  let w ← get
  match w.machine.screen? with
  | none => return false
  | some s =>
    let (painted, view, s) := w.view.refresh s
    set { w with view, machine := w.machine.withScreen s }
    return painted

def type (k : Key) : WindowM T Bool := do
  let w ← get
  match w.machine.screen? with
  | none => return true
  | some s => match View.type k s with
    | .error e => throw e
    | .ok (passedOn, s) =>
      set { w with machine := w.machine.withScreen s }
      return passedOn

def start : WindowM T Unit := modify fun w =>
  if w.machine.isHalted then w
  else { w with timer := T.startTimer w.timer, focused := w.focused + 1 }.showActions true

def stopTimer (w : Window T) : Window T := { w with timer := T.stopTimer w.timer }

def pause : WindowM T Unit := modify fun w => (w.stopTimer.showActions false).showStatus

/-- What follows a run: a halted processor stops the timer, and view and label catch up. -/
def catchUp : WindowM T Unit := do
  modify fun w => if w.machine.isHalted then w.stopTimer.showActions false else w
  let _ ← refresh
  modify showStatus

/-- Runs at most `count` instructions. A byte that is no opcode stops the timer and is reported;
anything else that goes wrong is passed on. -/
def runSteps (count : Int) : WindowM T Unit := fun w =>
  match onMachine (Machine.run count.toNat) w with
  | .ok _ w => catchUp w
  | .error (.unknownOpcode opcode address) w =>
    catchUp { w.stopTimer with message := (Fault.unknownOpcode opcode address).message }
  | .error e w => .error e w

/-- One instruction, whether or not the timer is active. -/
def step : WindowM T Unit := do
  runSteps 1
  modify fun w => w.showActions w.running

def tick : WindowM T Unit := do
  runSteps (← get).config.display.stepsPerTick

def clearMemory (start : Int) : Nat → MachineM Unit
  | 0 => pure ()
  | count + 1 => do
    Machine.write start 0
    clearMemory (start + 1) count

/-- Clears the screen, loads the program anew and restores the initial state; returns the warnings
about that state. -/
def reset : WindowM T (List String) := do
  pause
  let w ← get
  let io := w.config.io
  onMachine (clearMemory io.screenStart (io.screenEnd - io.screenStart + 1).toNat)
  let _ ← onMachine (Machine.onMemory (Memory.load (byteValues w.program) (some w.config.origin)))
  modify fun w =>
    let m := w.config.initial.apply w.machine
    match m.screen? with
    | some s => { w with machine := m.withScreen (s.clear 0) }
    | none => { w with machine := m }
  let _ ← refresh
  modify fun w => (w.showActions false).showStatus
  return w.config.initial.warnings

def close : WindowM T Unit := modify stopTimer

/-- Does what an action stands for; a disabled one does nothing. -/
def click (a : Action) : WindowM T (List String) := do
  if (← get).isEnabled a then
    match a with
    | .run => start; return []
    | .pause => pause; return []
    | .step => step; return []
    | .reset => reset
  else return []

end Window

end Micro6502
