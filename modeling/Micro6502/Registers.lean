import Micro6502.Fault

namespace Micro6502

inductive Register where
  | a | x | y
  deriving DecidableEq, Repr

inductive Flag where
  | c | n | z
  deriving DecidableEq, Repr

def Register.ofName? : String → Option Register
  | "A" => some .a
  | "X" => some .x
  | "Y" => some .y
  | _ => none

def Flag.ofName? : String → Option Flag
  | "C" => some .c
  | "N" => some .n
  | "Z" => some .z
  | _ => none

structure Registers where
  a : Byte := 0
  x : Byte := 0
  y : Byte := 0
  carry : Bool := false
  negative : Bool := false
  zero : Bool := false
  deriving DecidableEq, Repr

namespace Registers

def get (r : Registers) : Register → Byte
  | .a => r.a
  | .x => r.x
  | .y => r.y

def flag (r : Registers) : Flag → Bool
  | .c => r.carry
  | .n => r.negative
  | .z => r.zero

/-- N and Z as the byte that the number denotes sets them. -/
def normalize (r : Registers) (n : Int) : Registers :=
  { r with negative := 0x80 ≤ byte n, zero := byte n = 0 }

def set (r : Registers) (target : Register) (n : Int) : Registers :=
  let r := r.normalize n
  match target with
  | .a => { r with a := byte n }
  | .x => { r with x := byte n }
  | .y => { r with y := byte n }

theorem get_set (r : Registers) (target other : Register) (n : Int) :
    (r.set target n).get other = if other = target then byte n else r.get other := by
  cases target <;> cases other <;> rfl

/-- The flags after a write are those of the written number, whatever the register. -/
theorem flag_set (r : Registers) (target : Register) (n : Int) (f : Flag) :
    (r.set target n).flag f = (r.normalize n).flag f := by
  cases target <;> rfl

def setCarry (r : Registers) (c : Bool) : Registers := { r with carry := c }

def carryBit (r : Registers) : Nat := if r.carry then 1 else 0

def flagNamed (r : Registers) (name : String) : Except Fault Bool :=
  match Flag.ofName? name with
  | some f => .ok (r.flag f)
  | none => .error (.unknownRegister name)

def getNamed (r : Registers) (name : String) : Except Fault Int :=
  match Flag.ofName? name, Register.ofName? name with
  | some f, _ => .ok (if r.flag f then 1 else 0)
  | none, some n => .ok (r.get n)
  | none, none => .error (.unknownRegister name)

/-- Writes a register by its name; a flag cannot be written so. -/
def setNamed (r : Registers) (name : String) (n : Int) : Except Fault Registers :=
  match Flag.ofName? name, Register.ofName? name with
  | some _, _ => .error (.flagWrite name)
  | none, some target => .ok (r.set target n)
  | none, none => .error (.unknownTarget name)

/-- The letters of the set flags among those asked for, and dashes for the others. -/
def flagLetters (r : Registers) (flags : List Flag) : String :=
  String.ofList <| flags.map fun f =>
    if r.flag f then match f with
      | .c => 'C'
      | .n => 'N'
      | .z => 'Z'
    else '-'

def render (r : Registers) : String :=
  s!"Registers(A=${Text.Hex.upper 2 r.a}, X=${Text.Hex.upper 2 r.x}, " ++
    s!"Y=${Text.Hex.upper 2 r.y}, flags={r.flagLetters [.n, .z, .c]})"

end Registers

end Micro6502
