namespace Micro6502.Text.Hex

def padded (width n : Nat) : List Char :=
  let digits := Nat.toDigits 16 n
  List.replicate (width - digits.length) '0' ++ digits

/-- Upper-case digits filling `width` places; the sign of a negative number takes one of them. -/
def upper (width : Nat) (n : Int) : String :=
  let places := (padded (if n < 0 then width - 1 else width) n.natAbs).map Char.toUpper
  String.ofList (if n < 0 then '-' :: places else places)

/-- Lower-case digits behind `0x`, six places with the mark and the sign. -/
def marked (n : Int) : String :=
  let places := '0' :: 'x' :: padded (if n < 0 then 3 else 4) n.natAbs
  String.ofList (if n < 0 then '-' :: places else places)

def digit? (c : Char) : Option Nat :=
  let n := c.toNat
  if 0x30 ≤ n && n ≤ 0x39 then some (n - 0x30)
  else if 0x41 ≤ n && n ≤ 0x46 then some (n - 0x41 + 10)
  else if 0x61 ≤ n && n ≤ 0x66 then some (n - 0x61 + 10)
  else none

def pair? : List Char → Option UInt8
  | [high, low] => do
    let h ← digit? high
    let l ← digit? low
    some (UInt8.ofNat (16 * h + l))
  | _ => none

end Micro6502.Text.Hex
