import Micro6502.Addressing

namespace Micro6502

structure Line where
  address : Int
  bytes : List Byte
  text : String
  deriving DecidableEq, Repr

def Line.hex (l : Line) : String :=
  " ".intercalate (l.bytes.map fun (b : Byte) => Text.Hex.upper 2 b)

namespace Listing

def lineOf (i : Instruction) (address : Int) (opcode : Byte) (operand : List Byte) :
    Except Fault Line := do
  let next := word (address + 1 + operand.length)
  let operandText ← i.mode.format (byteValues operand) next
  let text := if operandText.isEmpty then i.mnemonic.name else s!"{i.mnemonic.name} {operandText}"
  return ⟨address, opcode :: operand, text⟩

def line (table : OpcodeTable) (address : Int) : MemoryM Line := do
  let opcode ← Memory.peek address
  match table.get? opcode with
  | none => return ⟨address, [opcode], s!"DB ${Text.Hex.upper 2 opcode}"⟩
  | some i =>
    let operand ← Memory.peekMany (address + 1) i.mode.operandLength
    match lineOf i address opcode operand with
    | .error e => throw e
    | .ok l => return l

/-- The lines of the `count` bytes from `start` on; the last instruction is listed whole. -/
def lines (table : OpcodeTable) (start : Int) (count : Nat) : MemoryM (List Line) :=
  match count with
  | 0 => return []
  | count + 1 => do
    let l ← line table (word start)
    let more ← lines table (start + (l.bytes.length : Nat)) (count + 1 - max 1 l.bytes.length)
    return l :: more
termination_by count

end Listing

end Micro6502
