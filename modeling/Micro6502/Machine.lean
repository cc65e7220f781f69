import Micro6502.Io
import Micro6502.Memory
import Micro6502.OpcodeTable.Standard
import Micro6502.Registers

namespace Micro6502

/-- Whether the processor runs, has come to its end, or stumbled over a byte that is no opcode. -/
inductive Status where
  | running
  | finished
  | failed (opcode : Byte) (address : Int)
  deriving DecidableEq, Repr

def Status.isHalted : Status → Bool
  | running => false
  | _ => true

def Status.fault? : Status → Option Fault
  | failed opcode address => some (.unknownOpcode opcode address)
  | _ => none

def Status.name (s : Status) : String := if s.isHalted then "HALTED" else "RUNNING"

/-- A processor with what it works on. Without peripherals every access goes to the memory. -/
structure Machine where
  memory : Memory := {}
  io : Option Io := none
  registers : Registers := {}
  table : OpcodeTable := .standard
  status : Status := .running
  /-- Instructions completed since the last reset. -/
  steps : Nat := 0

/-- An action of the machine; a failed one keeps what it did before it failed. -/
abbrev MachineM := EStateM Fault Machine

structure CpuState where
  pc : Int := 0
  sp : Int := 0xFF
  a : Int := 0
  x : Int := 0
  y : Int := 0
  carry : Bool := false
  negative : Bool := false
  zero : Bool := false
  deriving DecidableEq, Repr

def CpuState.stackAddress (s : CpuState) : Int := stackBase + s.sp % 0x100

namespace Machine

def isHalted (m : Machine) : Bool := m.status.isHalted

def state (m : Machine) : CpuState where
  pc := m.memory.pc
  sp := m.memory.sp
  a := m.registers.a
  x := m.registers.x
  y := m.registers.y
  carry := m.registers.carry
  negative := m.registers.negative
  zero := m.registers.zero

def onMemory {α : Type} (act : MemoryM α) : MachineM α :=
  fun ⟨memory, io, registers, table, status, steps⟩ =>
    match act memory with
    | .ok a memory => .ok a ⟨memory, io, registers, table, status, steps⟩
    | .error e memory => .error e ⟨memory, io, registers, table, status, steps⟩

def onIo (act : EStateM Fault Io Unit) : MachineM Unit :=
  fun ⟨memory, io, registers, table, status, steps⟩ =>
    match io with
    | none => .ok () ⟨memory, none, registers, table, status, steps⟩
    | some io => match act io with
      | .ok () io => .ok () ⟨memory, some io, registers, table, status, steps⟩
      | .error e io => .error e ⟨memory, some io, registers, table, status, steps⟩

def modifyRegisters (f : Registers → Registers) : MachineM Unit :=
  modify fun m => { m with registers := f m.registers }

def setRegister (target : Register) (n : Int) : MachineM Unit :=
  modifyRegisters (·.set target n)

def read (address : Int) : MachineM Byte := do
  match (← get).io.bind (·.supply (word address)) with
  | some (b, io) =>
    modify fun m => { m with io := some io }
    return b
  | none => onMemory (Memory.read address)

/-- Writes the memory, then shows the value if the address belongs to the screen. -/
def write (address value : Int) : MachineM Unit := do
  onMemory (Memory.write address value)
  onIo (Io.plot (word address) value)

def screen? (m : Machine) : Option Screen :=
  m.io.bind (·.console.screen?)

def withScreen (m : Machine) (s : Screen) : Machine :=
  { m with io := m.io.map fun io => { io with console := .screen s } }

def setStatus (s : Status) : MachineM Unit := modify fun m => { m with status := s }

/-- Registers, status and step count anew; the counter at the origin, the pointer at the top. The
memory keeps its bytes. -/
def reset : MachineM Unit := modify fun m =>
  { m with
    memory := { m.memory with pc := m.memory.origin, sp := stackTop }
    registers := {}
    status := .running
    steps := 0 }

end Machine

end Micro6502
