import Micro6502.Addressing
import Micro6502.Execution
import Micro6502.Snapshot

namespace Micro6502

namespace Machine

/-- Resolves the operand of a fetched opcode; `place` is where the opcode stood. The operand bytes
are those that the program counter passed over. -/
def decode (opcode : Byte) (place : Int) : MachineM Decoded := do
  match (← get).table.get? opcode with
  | none =>
    setStatus (.failed opcode place)
    throw (.unknownOpcode opcode place)
  | some instruction =>
    let start := (← get).memory.pc
    let address ← instruction.mode.resolve
    let next := (← get).memory.pc
    let operand ← onMemory (Memory.peekMany start (word (next - start)).toNat)
    match instruction.mode.format (byteValues operand) next with
    | .error e => throw e
    | .ok text => return { opcode, instruction, text, operand, address }

def execute (d : Decoded) : MachineM Unit := do
  d.instruction.mnemonic.execute d.address
  if d.instruction.mnemonic = .brk then setStatus .finished

/-- One instruction. A halted processor does nothing and says so; the log of the accesses made
before the step is dropped in either case. -/
def step : MachineM Snapshot := do
  let _ ← onMemory Memory.takeLog
  let m ← get
  if m.isHalted then
    return { state := m.state, decoded := none, steps := m.steps, accesses := [] }
  let place := m.memory.pc
  let opcode ← Mode.fetch
  let d ← decode opcode place
  execute d
  modify fun m => { m with steps := m.steps + 1 }
  let accesses ← onMemory Memory.takeLog
  let m ← get
  return { state := m.state, decoded := some d, steps := m.steps, accesses }

/-- Steps until the processor halts, at most `limit` times; `done` counts the steps so far. -/
def runFrom (done : Nat) : Nat → MachineM Nat
  | 0 => return done
  | limit + 1 => do
    if (← get).isHalted then return done
    let _ ← step
    runFrom (done + 1) limit

def run (limit : Nat) : MachineM Nat := runFrom 0 limit

def registerMap (m : Machine) : List (String × Int) :=
  [("A", m.registers.a), ("X", m.registers.x), ("Y", m.registers.y),
    ("PC", m.memory.pc), ("S", m.state.stackAddress)]

end Machine

end Micro6502
