import Micro6502.Mode
import Micro6502.Text.Quoted
import Micro6502.Word

namespace Micro6502

inductive Fault where
  /-- No device answers at the address. -/
  | unmapped (address : Int)
  /-- The offset lies outside a memory of the given size. -/
  | outOfRam (offset : Int) (size : Nat)
  /-- The value to store is wider than a byte. -/
  | notByte (data : Int)
  /-- A memory needs at least one byte. -/
  | ramSize
  /-- A range must be ordered and lie in the address space. -/
  | addressRange (first last : Int)
  /-- Only a device can be attached. -/
  | noDevice
  /-- The memory does not fill the range it is attached to. -/
  | ramMismatch (size : Nat) (span : Int)
  /-- An instruction that needs an effective address has none; the peripherals would have been
  asked for it if `mapped`. -/
  | noAddress (mapped : Bool)
  | unknownOpcode (opcode : Byte) (address : Int)
  /-- A register or flag that cannot be read. -/
  | unknownRegister (name : String)
  /-- A register that cannot be written. -/
  | unknownTarget (name : String)
  | flagWrite (name : String)
  /-- An operand byte or a pixel that is not there. -/
  | noElement
  /-- The mode does not take that many operand bytes. -/
  | unprintable (mode : Mode)
  /-- The screen has no columns. -/
  | zeroWidth
  | doesNotFit (size : Nat) (origin : Int)
  /-- A word of a hex dump that is not two digits. -/
  | notHexPair (word : String) (line : Nat)
  | negativeHistory
  /-- A key whose lower-case form is not one character. -/
  | wideKey (length : Nat)
  deriving DecidableEq, Repr

inductive FaultKind where
  | index | value | type | key | decode | flagWrite | division
  deriving DecidableEq, Repr

def Fault.kind : Fault → FaultKind
  | unmapped _ | outOfRam _ _ | noElement => .index
  | notByte _ | ramSize | addressRange _ _ | ramMismatch _ _ => .value
  | doesNotFit _ _ | notHexPair _ _ | negativeHistory => .value
  | noDevice | noAddress _ | wideKey _ => .type
  | unknownOpcode _ _ => .decode
  | unknownRegister _ | unknownTarget _ | unprintable _ => .key
  | flagWrite _ => .flagWrite
  | zeroWidth => .division

def Fault.message : Fault → String
  | unmapped a => s!"Address {Text.Hex.marked a} not mapped to any device."
  | outOfRam a size => s!"Address {a} out of bounds for RAM of size {size}."
  | notByte d => s!"Data {d} is not an 8-bit value."
  | ramSize => "RAM size must be a positive integer."
  | addressRange first last =>
    s!"Invalid address range {Text.Hex.marked first}-{Text.Hex.marked last}: " ++
      "must satisfy 0 <= start <= end <= 0xFFFF."
  | noDevice => "Device must be an instance of a class derived from Device."
  | ramMismatch size span =>
    s!"Registered RAM device size ({size} bytes) does not match " ++
      s!"the specified address range size ({span} bytes)."
  | noAddress mapped =>
    let operator := if mapped then "&=" else "&"
    s!"unsupported operand type(s) for {operator}: 'NoneType' and 'int'"
  | unknownOpcode opcode a =>
    s!"Unknown opcode ${Text.Hex.upper 2 opcode} at ${Text.Hex.upper 4 a}"
  | unknownRegister name => Text.Quoted.quote name
  | unknownTarget name => Text.Quoted.quote s!"Unknown register: {name}"
  | flagWrite name => s!"Flag '{name}' cannot be written directly."
  | noElement => "list index out of range"
  | unprintable mode => s!"<AddressingMode.{mode.name}: '{mode.name}'>"
  | zeroWidth => "integer modulo by zero"
  | doesNotFit size origin =>
    s!"Program of {size} bytes does not fit at ${Text.Hex.upper 4 origin} (exceeds $FFFF)."
  | notHexPair word line =>
    s!"Invalid byte '{word}' on line {line}: expected two hex digits"
  | negativeHistory => "maxlen must be non-negative"
  | wideKey length => s!"ord() expected a character, but string of length {length} found"

end Micro6502
