import Micro6502.Step

namespace Micro6502

inductive Condition where
  /-- The address of the next instruction. -/
  | pcMatch
  /-- The last instruction read the address. -/
  | memoryRead
  /-- The last instruction wrote the address. -/
  | memoryWrite
  /-- The named part of the state has the value. -/
  | registerValue
  /-- The last instruction changed the named part of the state. -/
  | registerChange
  deriving DecidableEq, Repr

namespace Condition

def all : List Condition := [pcMatch, memoryRead, memoryWrite, registerValue, registerChange]

def name : Condition → String
  | pcMatch => "PC_MATCH"
  | memoryRead => "MEMORY_READ"
  | memoryWrite => "MEMORY_WRITE"
  | registerValue => "REGISTER_VALUE"
  | registerChange => "REGISTER_CHANGE"

def ofName? (s : String) : Option Condition := all.find? (·.name == s)

end Condition

/-- A part of the state by its name; flags count as zero and one. Only the values that a state holds
and the address of its stack are parts; whatever else a state may be asked for by name, its
operations for one, is left out here. -/
def CpuState.part? (s : CpuState) : String → Option Int
  | "pc" => some s.pc
  | "sp" => some s.sp
  | "a" => some s.a
  | "x" => some s.x
  | "y" => some s.y
  | "flag_c" => some (if s.carry then 1 else 0)
  | "flag_n" => some (if s.negative then 1 else 0)
  | "flag_z" => some (if s.zero then 1 else 0)
  | "stack_address" => some s.stackAddress
  | _ => none

/-- Each condition looks at the fields that it needs. -/
structure Breakpoint where
  condition : Condition
  value : Option Int := none
  address : Option Int := none
  part : Option String := none
  enabled : Bool := true
  deriving DecidableEq, Repr

namespace Breakpoint

def hitsBefore (b : Breakpoint) (pc : Int) : Bool :=
  b.enabled && b.condition == .pcMatch && b.value == some pc

def hitsAfter (b : Breakpoint) (before : CpuState) (s : Snapshot) : Bool :=
  b.enabled && match b.condition with
    | .pcMatch => false
    | .memoryRead => s.accesses.any fun a => a.kind == .read && some a.address == b.address
    | .memoryWrite => s.accesses.any fun a => a.kind == .write && some a.address == b.address
    | .registerValue => match b.part.bind s.state.part? with
      | some n => b.value == some n
      | none => false
    | .registerChange => match b.part.bind s.state.part? with
      | some n => b.part.bind before.part? != some n
      | none => false

end Breakpoint

inductive StopReason where
  | breakpoint (pc : Int)
  | halted
  | stepLimit
  | stopped
  deriving DecidableEq, Repr

namespace StopReason

def name : StopReason → String
  | breakpoint _ => "BREAKPOINT"
  | halted => "HALTED"
  | stepLimit => "STEP_LIMIT"
  | stopped => "STOPPED"

def notice? : StopReason → Option String
  | breakpoint pc => some s!"Breakpoint hit at PC: {Text.Hex.marked pc}"
  | _ => none

end StopReason

structure Debugger where
  breakpoints : List Breakpoint := []
  /-- How many snapshots are kept; all of them if there is no limit. -/
  historyLimit : Option Nat := some 1000
  /-- The kept snapshots, oldest first. -/
  history : Array Snapshot := #[]
  last : Option Snapshot := none
  /-- The breakpoint that ended the last run, if one did. -/
  lastHit : Option Breakpoint := none

namespace Debugger

def withHistory (limit : Option Int) : Except Fault Debugger :=
  match limit with
  | none => .ok { historyLimit := none }
  | some n => if n < 0 then .error .negativeHistory else .ok { historyLimit := some n.toNat }

def add (d : Debugger) (b : Breakpoint) : Debugger :=
  if d.breakpoints.contains b then d else { d with breakpoints := d.breakpoints ++ [b] }

def remove (d : Debugger) (b : Breakpoint) : Debugger :=
  { d with breakpoints := d.breakpoints.erase b }

/-- The first breakpoint equal to `old` becomes `new`. -/
def update (d : Debugger) (old new : Breakpoint) : Debugger :=
  { d with breakpoints := d.breakpoints.replace old new }

/-- Keeps a snapshot; beyond the limit the oldest is dropped. -/
def record (d : Debugger) (s : Snapshot) : Debugger :=
  let history := d.history.push s
  let history := match d.historyLimit with
    | none => history
    | some limit => if limit < history.size then history.extract (history.size - limit) else history
  { d with history, last := some s }

def hitBefore? (d : Debugger) (pc : Int) : Option Breakpoint :=
  d.breakpoints.find? (·.hitsBefore pc)

def hitAfter? (d : Debugger) (before : CpuState) (s : Snapshot) : Option Breakpoint :=
  d.breakpoints.find? (·.hitsAfter before s)

end Debugger

structure Session where
  machine : Machine
  debugger : Debugger := {}

abbrev SessionM := EStateM Fault Session

namespace Session

def onMachine {α : Type} (act : MachineM α) : SessionM α := fun ⟨machine, debugger⟩ =>
  match act machine with
  | .ok a machine => .ok a ⟨machine, debugger⟩
  | .error e machine => .error e ⟨machine, debugger⟩

def step : SessionM Snapshot := do
  let s ← onMachine Machine.step
  modify fun session => { session with debugger := session.debugger.record s }
  return s

def stopRequested (s : Session) : Bool := s.machine.io.any (·.stopRequested)

def clearRequest : SessionM Unit := modify fun s =>
  { s with machine := { s.machine with io := s.machine.io.map fun io =>
    { io with stopRequested := false } } }

def stopAt (b : Breakpoint) (pc : Int) : SessionM StopReason := do
  modify fun s => { s with debugger := { s.debugger with lastHit := some b } }
  return .breakpoint pc

/-- Goes on with a run for at most `limit` instructions; `resumed` tells that the run has executed
one already. -/
def runOn (resumed : Bool) : Nat → SessionM StopReason
  | 0 => do
    let s ← get
    if s.stopRequested then return .stopped
    if s.machine.isHalted then return .halted
    return .stepLimit
  | limit + 1 => do
    let s ← get
    if s.stopRequested then return .stopped
    if s.machine.isHalted then return .halted
    let before := s.machine.state
    match if resumed then s.debugger.hitBefore? before.pc else none with
    | some b => stopAt b before.pc
    | none =>
      let snapshot ← step
      match (← get).debugger.hitAfter? before snapshot with
      | some b => stopAt b snapshot.state.pc
      | none => runOn true limit

/-- Runs at most `limit` instructions. No breakpoint on the program counter holds up the first one,
so that a run can leave the place where the last one stopped. -/
def run (limit : Nat) : SessionM StopReason := do
  clearRequest
  modify fun s => { s with debugger := { s.debugger with lastHit := none } }
  runOn false limit

end Session

end Micro6502
