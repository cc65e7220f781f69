import Micro6502.Config.Field
import Micro6502.Io
import Micro6502.Text.Case
import Micro6502.Text.Path

namespace Micro6502

structure DisplayConfig where
  /-- Dots on the display for each pixel. -/
  scale : Int := 10
  stepsPerTick : Int := 500
  tickInterval : Int := 10
  deriving DecidableEq, Repr

/-- The registers are those that the configuration names, in its order. -/
structure InitialState where
  pc : Int := 0x0600
  sp : Int := 0xFF
  registers : List (String × Int) := []
  deriving DecidableEq, Repr

structure SystemConfig where
  origin : Int := 0x0600
  opcodeTable : Data := .null
  io : IoConfig := {}
  display : DisplayConfig := {}
  initial : InitialState := {}
  deriving Repr

namespace SystemConfig

def tablePath (base : Option String) (value : Data) : Except ConfigError Data :=
  match value, base with
  | .null, _ | _, none | _, some "" => .ok value
  | .text path, some base => .ok (.text (Text.Path.join base path))
  | _, some _ => .error (.notPath value)

def parseIo (entries : List (Data × Data)) : Except ConfigError IoConfig := do
  let standard : IoConfig := {}
  let randomAddress ← Config.integerOr entries "random_address" standard.randomAddress
  let keypressAddress ← Config.integerOr entries "keypress_address" standard.keypressAddress
  let screenStart ← Config.integerOr entries "framebuffer_start" standard.screenStart
  let screenEnd ← Config.integerOr entries "framebuffer_end" standard.screenEnd
  let screenWidth ← Config.integerOr entries "framebuffer_width" standard.screenWidth
  if screenEnd < screenStart then throw .screenRange
  if screenWidth ≤ 0 then throw .screenWidth
  return { randomAddress, keypressAddress, screenStart, screenEnd, screenWidth }

def parseDisplay (entries : List (Data × Data)) : Except ConfigError DisplayConfig := do
  let standard : DisplayConfig := {}
  let scale ← Config.integerOr entries "scale" standard.scale
  let stepsPerTick ← Config.integerOr entries "steps_per_tick" standard.stepsPerTick
  let tickInterval ← Config.integerOr entries "tick_interval_ms" standard.tickInterval
  return { scale, stepsPerTick, tickInterval }

/-- A value under a name; a name that is there already keeps its place. -/
def putRegister (registers : List (String × Int)) (name : String) (n : Int) :
    List (String × Int) :=
  if registers.any (·.1 == name) then
    registers.map fun r => if r.1 == name then (name, n) else r
  else registers ++ [(name, n)]

/-- Register names count in upper case. -/
def parseRegisters (entries : List (Data × Data)) : Except ConfigError (List (String × Int)) :=
  entries.foldlM (fun registers (key, value) =>
    match key.text? with
    | none => .error .longNumber
    | some name => do
      return putRegister registers (Text.upper name) (← Config.integer value)) []

def parseInitial (origin : Int) (entries : List (Data × Data)) :
    Except ConfigError InitialState := do
  let registers ← parseRegisters (← Config.subsection entries "registers")
  let pc ← Config.integerOr entries "pc" origin
  let sp ← Config.integerOr entries "sp" 0xFF
  return { pc, sp, registers }

/-- Reads a configuration. `base` is the directory from which the file of the opcode table is
seen. -/
def parse (entries : List (Data × Data)) (base : Option String) :
    Except ConfigError SystemConfig := do
  let opcodeTable ← tablePath base ((Data.lookup "opcode_table" entries).getD .null)
  let io ← parseIo (← Config.subsection entries "io")
  let display ← parseDisplay (← Config.subsection entries "display")
  let origin ← Config.integerOr entries "program_origin" 0x0600
  let initial ← parseInitial origin (← Config.subsection entries "initial_state")
  return { origin, opcodeTable, io, display, initial }

end SystemConfig

end Micro6502
