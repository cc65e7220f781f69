import Micro6502.Data
import Micro6502.Word

namespace Micro6502

inductive ConfigError where
  | notInteger (value : Data)
  | notSection (key : String)
  | notDocument (path : String)
  /-- The screen ends before it starts. -/
  | screenRange
  | screenWidth
  /-- A file is named by a value of another kind than text. -/
  | notPath (value : Data)
  | wideOpcode (key : Data)
  | duplicateOpcode (opcode : Byte)
  | notEntry (opcode : Byte)
  | unknownMnemonic (opcode : Byte) (name : Data)
  | unknownMode (opcode : Byte) (name : Data)
  /-- A value has to be written that holds a number with too many digits. -/
  | longNumber
  deriving Repr

inductive ConfigErrorKind where
  | config | type | value
  deriving DecidableEq, Repr

namespace ConfigError

def kind : ConfigError → ConfigErrorKind
  | notPath _ => .type
  | longNumber => .value
  | _ => .config

def message : ConfigError → String
  | notInteger value => s!"Invalid integer format: {value.render}"
  | notSection key => s!"Section '{key}' must be a mapping."
  | notDocument path => s!"Top-level YAML value in {path} must be a mapping."
  | screenRange => "io.framebuffer_end must not be below io.framebuffer_start."
  | screenWidth => "io.framebuffer_width must be a positive integer."
  | notPath value => s!"expected str, bytes or os.PathLike object, not {value.kind}"
  | wideOpcode key => s!"Opcode {key.render} is not an 8-bit value."
  | duplicateOpcode opcode => s!"Duplicate opcode ${Text.Hex.upper 2 opcode}."
  | notEntry opcode => s!"Opcode ${Text.Hex.upper 2 opcode}: entry must be a mapping."
  | unknownMnemonic opcode name =>
    s!"Opcode ${Text.Hex.upper 2 opcode}: unknown mnemonic {name.inner}"
  | unknownMode opcode name =>
    s!"Opcode ${Text.Hex.upper 2 opcode}: unknown addressing mode {name.inner}"
  | longNumber =>
    "Exceeds the limit (4300 digits) for integer string conversion; " ++
      "use sys.set_int_max_str_digits() to increase the limit"

end ConfigError

end Micro6502
