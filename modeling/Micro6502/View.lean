import Micro6502.Screen
import Micro6502.Text.Case

namespace Micro6502

inductive Arrow where
  | up | left | down | right
  deriving DecidableEq, Repr

def Arrow.code : Arrow → Byte
  | up => 0x77
  | left => 0x61
  | down => 0x73
  | right => 0x64

structure Key where
  arrow : Option Arrow
  text : String
  deriving DecidableEq, Repr

/-- The code of a key: its arrow's, else the low byte of the first character in lower case. A key
with neither has none. -/
def Key.code? (k : Key) : Except Fault (Option Byte) :=
  match k.arrow, k.text.toList with
  | some arrow, _ => .ok (some arrow.code)
  | none, [] => .ok none
  | none, c :: _ => match Text.lowerOf c with
    | [d] => .ok (some (byte (d.toNat : Int)))
    | long => .error (.wideKey long.length)

structure View where
  scale : Int := 10
  repaints : Nat := 0
  deriving DecidableEq, Repr

namespace View

def size (v : View) (s : Screen) : Int × Int := (s.width * v.scale, s.height * v.scale)

def refresh (v : View) (s : Screen) : Bool × View × Screen :=
  if s.touched.isEmpty then (false, v, s)
  else (true, { v with repaints := v.repaints + 1 }, s.untouched)

/-- Latches the code of a key; a key without one is passed on, which `true` tells. -/
def type (k : Key) (s : Screen) : Except Fault (Bool × Screen) := do
  match ← k.code? with
  | some b => return (false, s.press (b : Int))
  | none => return (true, s)

end View

end Micro6502
