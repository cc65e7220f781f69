import Micro6502.Machine

namespace Micro6502

structure Decoded where
  opcode : Byte
  instruction : Instruction
  /-- The operand as assembly text, empty in the implicit mode. -/
  text : String
  operand : List Byte
  address : Option Int
  deriving DecidableEq, Repr

def Decoded.symbol (d : Decoded) : String :=
  if d.text.isEmpty then d.instruction.mnemonic.name else s!"{d.instruction.mnemonic.name} {d.text}"

/-- `decoded` is `none` when a halted processor was asked for a step. -/
structure Snapshot where
  state : CpuState
  decoded : Option Decoded
  steps : Nat
  accesses : List Access
  deriving DecidableEq, Repr

namespace Snapshot

def symbol (s : Snapshot) : String := (s.decoded.map (·.symbol)).getD "HALT"

def mnemonic (s : Snapshot) : String := (s.decoded.map (·.instruction.mnemonic.name)).getD "HALT"

def mode (s : Snapshot) : Mode := (s.decoded.map (·.instruction.mode)).getD .implicit

def opcodeText (s : Snapshot) : String :=
  (s.decoded.map fun d => Text.Hex.upper 2 d.opcode).getD "--"

def operandTexts (s : Snapshot) : List String :=
  match s.decoded with
  | some d => if d.text.isEmpty then [] else [d.text]
  | none => []

def operand (s : Snapshot) : List Byte := (s.decoded.map (·.operand)).getD []

def address (s : Snapshot) : Option Int := s.decoded.bind (·.address)

def length (s : Snapshot) : Nat := (s.decoded.map (1 + ·.operand.length)).getD 0

end Snapshot

end Micro6502
