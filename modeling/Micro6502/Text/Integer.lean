import Micro6502.Text.Blank
import Micro6502.Text.Hex

namespace Micro6502.Text.Integer

/-- The zeros beyond ASCII; each begins a row of ten decimal digits. -/
def zeros : List Nat := [
  0x660, 0x6F0, 0x7C0, 0x966, 0x9E6, 0xA66, 0xAE6, 0xB66, 0xBE6, 0xC66, 0xCE6, 0xD66, 0xDE6,
  0xE50, 0xED0, 0xF20, 0x1040, 0x1090, 0x17E0, 0x1810, 0x1946, 0x19D0, 0x1A80, 0x1A90, 0x1B50,
  0x1BB0, 0x1C40, 0x1C50, 0xA620, 0xA8D0, 0xA900, 0xA9D0, 0xA9F0, 0xAA50, 0xABF0, 0xFF10,
  0x104A0, 0x10D30, 0x11066, 0x110F0, 0x11136, 0x111D0, 0x112F0, 0x11450, 0x114D0, 0x11650,
  0x116C0, 0x11730, 0x118E0, 0x11950, 0x11C50, 0x11D50, 0x11DA0, 0x16A60, 0x16AC0, 0x16B50,
  0x1D7CE, 0x1D7D8, 0x1D7E2, 0x1D7EC, 0x1D7F6, 0x1E140, 0x1E2F0, 0x1E950, 0x1FBF0]

def foreignDigit? (c : Char) : Option Nat :=
  (zeros.find? fun z => z ≤ c.toNat && c.toNat < z + 10).map (c.toNat - ·)

/-- The value of a digit: decimal in any script, hexadecimal in ASCII only. -/
def digit? (base : Nat) (c : Char) : Option Nat :=
  ((Hex.digit? c).or (foreignDigit? c)).filter (· < base)

/-- A blank around a literal; the information separators are none. -/
def isMargin (c : Char) : Bool :=
  isBlank c && !(0x1C ≤ c.toNat && c.toNat ≤ 0x1F)

/-- The digits of a literal, where one underscore may stand between two of them. -/
def digits? (base : Nat) : List Char → Option (List Nat)
  | [] => none
  | [c] => (digit? base c).map ([·])
  | c :: '_' :: rest => do some ((← digit? base c) :: (← digits? base rest))
  | c :: d :: rest => do some ((← digit? base c) :: (← digits? base (d :: rest)))

def ofDigits (base : Nat) (digits : List Nat) : Nat :=
  digits.foldl (fun n d => n * base + d) 0

/-- Decimal literals with more digits than this are refused. -/
def decimalLimit : Nat := 4300

def magnitude? (base : Nat) (cs : List Char) : Option Nat :=
  match digits? base cs with
  | some digits =>
    if base = 10 ∧ decimalLimit < digits.length then none else some (ofDigits base digits)
  | none => none

/-- The letter that may stand behind a zero in front of the digits. -/
def markOf? : Nat → Option Char
  | 2 => some 'b'
  | 8 => some 'o'
  | 16 => some 'x'
  | _ => none

/-- Digits without the mark of their base, its zero in any script and its letter in either case; one
underscore may follow the mark. -/
def withoutMark (base : Nat) : List Char → List Char
  | zero :: letter :: rest =>
    if digit? 10 zero = some 0 ∧ markOf? base = some letter.toLower then
      match rest with
      | '_' :: digits => digits
      | _ => rest
    else zero :: letter :: rest
  | cs => cs

def unsigned? (base : Nat) (cs : List Char) : Option Nat :=
  magnitude? base (withoutMark base cs)

def parse? (base : Nat) (cs : List Char) : Option Int :=
  match stripBy isMargin cs with
  | '-' :: rest => (unsigned? base rest).map fun n => -(n : Int)
  | '+' :: rest => (unsigned? base rest).map fun n => (n : Int)
  | body => (unsigned? base body).map fun n => (n : Int)

end Micro6502.Text.Integer
