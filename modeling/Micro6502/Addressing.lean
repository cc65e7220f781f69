import Micro6502.Machine

namespace Micro6502.Mode

open Machine

def readWord (lo hi : Int) : MachineM Int := do
  let l ← read lo
  let h ← read hi
  return wordOf l h

def fetch : MachineM Byte := onMemory Memory.fetch

def fetchWord : MachineM Int := do
  let lo ← fetch
  let hi ← fetch
  return wordOf lo hi

/-- The address after `address` within the same page. -/
def nextInPage (address : Int) : Int :=
  address / 0x100 * 0x100 + (address + 1) % 0x100

def zeroPageIndexed (index : Register) : MachineM Int := do
  let b ← fetch
  return ((b : Int) + (← get).registers.get index) % 0x100

def absoluteIndexed (index : Register) : MachineM Int := do
  let w ← fetchWord
  return word (w + (← get).registers.get index)

/-- Takes the operand of the mode and returns the effective address, if the mode has one. -/
def resolve : Mode → MachineM (Option Int)
  | implicit => return none
  | relative => do
    let offset ← fetch
    return some (word ((← get).memory.pc + signedOffset offset))
  | immediate => do
    let address := (← get).memory.pc
    let _ ← fetch
    return some address
  | zeroPage => do return some (← fetch)
  | zeroPageX => do return some (← zeroPageIndexed .x)
  | zeroPageY => do return some (← zeroPageIndexed .y)
  | absolute => do return some (← fetchWord)
  | absoluteX => do return some (← absoluteIndexed .x)
  | absoluteY => do return some (← absoluteIndexed .y)
  | indirect => do
    let pointer ← fetchWord
    return some (← readWord pointer (nextInPage pointer))
  | indexedIndirect => do
    let pointer ← zeroPageIndexed .x
    return some (← readWord pointer ((pointer + 1) % 0x100))
  | indirectIndexed => do
    let pointer : Int ← fetch
    let base ← readWord pointer ((pointer + 1) % 0x100)
    return some (word (base + (← get).registers.get .y))

/-- The operand as assembly text; `next` is the address of the next instruction. -/
def format (mode : Mode) (operand : List Int) (next : Int) : Except Fault String :=
  match mode, operand with
  | implicit, _ => .ok ""
  | relative, [] => .error .noElement
  | relative, b :: _ => .ok s!"${Text.Hex.upper 4 (word (next + signedOffset b))}"
  | mode, [lo, hi] =>
    let w := s!"${Text.Hex.upper 4 (wordOf lo hi)}"
    match mode with
    | absolute => .ok w
    | absoluteX => .ok s!"{w},X"
    | absoluteY => .ok s!"{w},Y"
    | indirect => .ok s!"({w})"
    | _ => .error (.unprintable mode)
  | _, [] => .error .noElement
  | mode, value :: _ =>
    let b := s!"${Text.Hex.upper 2 value}"
    match mode with
    | immediate => .ok s!"#{b}"
    | zeroPage => .ok b
    | zeroPageX => .ok s!"{b},X"
    | zeroPageY => .ok s!"{b},Y"
    | indexedIndirect => .ok s!"({b},X)"
    | indirectIndexed => .ok s!"({b}),Y"
    | _ => .error (.unprintable mode)

end Micro6502.Mode
