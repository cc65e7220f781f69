namespace Micro6502

/-- A number `± significand · 2 ^ exponent`, or what stands beyond all of them. The significand has
53 bits, fewer only at the least exponent. -/
inductive Binary64 where
  | finite (negative : Bool) (significand : Nat) (exponent : Int)
  | infinite (negative : Bool)
  | undefined
  deriving DecidableEq, Repr, Inhabited

namespace Binary64

def leastExponent : Int := -1074

def greatestExponent : Int := 971

def zero (negative : Bool) : Binary64 := finite negative 0 leastExponent

/-- The whole number nearest to a quotient; halfway, the even one. -/
def roundQuotient (num den : Nat) : Nat :=
  let q := num / den
  let twice := 2 * (num % den)
  if den < twice || (twice == den && q % 2 == 1) then q + 1 else q

def scaleBy (base : Nat) (exponent : Int) (num den : Nat) : Nat × Nat :=
  if exponent < 0 then (num * base.pow exponent.natAbs, den)
  else (num, den * base.pow exponent.natAbs)

def ofQuotient (negative : Bool) (num den : Nat) : Binary64 :=
  if num = 0 then zero negative
  else
    let guess := max leastExponent ((num.log2 : Int) - den.log2 - 53)
    let (n, d) := scaleBy 2 guess num den
    let exponent := if Nat.pow 2 53 ≤ n / d then guess + 1 else guess
    let (n, d) := scaleBy 2 exponent num den
    let significand := roundQuotient n d
    let (significand, exponent) :=
      if significand = Nat.pow 2 53 then (Nat.pow 2 52, exponent + 1) else (significand, exponent)
    if greatestExponent < exponent then infinite negative else finite negative significand exponent

/-- The number nearest to `± digits · 10 ^ exponent`. Beyond 310 places nothing is finite, and 330
places behind the point everything is zero. -/
def ofDecimal (negative : Bool) (digits : Nat) (exponent : Int) : Binary64 :=
  let places := (toString digits).length + exponent
  if digits = 0 || places < -330 then zero negative
  else if 310 < places then infinite negative
  else
    let (n, d) := scaleBy 10 (-exponent) digits 1
    ofQuotient negative n d

def ofNat (n : Nat) : Binary64 := ofQuotient false n 1

def negate : Binary64 → Binary64
  | finite negative m e => finite (!negative) m e
  | infinite negative => infinite (!negative)
  | undefined => undefined

def multiple (negative : Bool) (m : Nat) (exponent e : Int) : Int :=
  let n : Int := m * Int.pow 2 (exponent - e).toNat
  if negative then -n else n

def add : Binary64 → Binary64 → Binary64
  | undefined, _ | _, undefined => undefined
  | infinite a, infinite b => if a = b then infinite a else undefined
  | infinite a, _ | _, infinite a => infinite a
  | finite s m e, finite t n f =>
    let low := min e f
    let sum := multiple s m e low + multiple t n f low
    if sum = 0 then zero (s && t)
    else
      let (num, den) := scaleBy 2 (-low) sum.natAbs 1
      ofQuotient (sum < 0) num den

def mul : Binary64 → Binary64 → Binary64
  | undefined, _ | _, undefined => undefined
  | infinite s, infinite t => infinite (s != t)
  | infinite s, finite t m _ | finite t m _, infinite s =>
    if m = 0 then undefined else infinite (s != t)
  | finite s m e, finite t n f =>
    let (num, den) := scaleBy 2 (-(e + f)) (m * n) 1
    ofQuotient (s != t) num den

def isFinite : Binary64 → Bool
  | finite .. => true
  | _ => false

def toInt? : Binary64 → Option Int
  | finite negative m e =>
    let (num, den) := scaleBy 2 (-e) m 1
    let n : Int := num / den
    if num % den = 0 then some (if negative then -n else n) else none
  | _ => none

/-- Where the point stands in the decimal of `num / den`: behind so many of its digits. -/
def pointOf (num den : Nat) : Int :=
  if den ≤ num then (toString (num / den)).length else 1 - (toString (den / num)).length

/-- A decimal of `n` digits that reads back as `± num / den`: the nearer of the two neighbours on
that grid if it does, else the farther one. -/
def decimalOf? (x : Binary64) (num den : Nat) (n : Nat) : Option (Nat × Int) :=
  let unit := pointOf num den - n
  let (p, q) := scaleBy 10 unit num den
  let low := p / q
  let candidates := if roundQuotient p q = low then [low, low + 1] else [low + 1, low]
  (candidates.find? fun digits => ofDecimal false digits unit == x).map fun digits => (digits, unit)

/-- The shortest decimal that reads back; 17 digits always do. -/
def shortest (m : Nat) (e : Int) : Nat × Int :=
  let (num, den) := scaleBy 2 (-e) m 1
  ((List.range 17).findSome? fun n => decimalOf? (finite false m e) num den (n + 1)).getD (m, 0)

/-- Digits with a point behind the first `point` of them: positional from four zeros after the
point up to sixteen digits before it, with an exponent outside. -/
def layout (ds : List Char) (point : Int) : List Char :=
  if -4 < point ∧ point ≤ 16 then
    if point ≤ 0 then '0' :: '.' :: List.replicate (-point).toNat '0' ++ ds
    else
      let whole := point.toNat
      let padded := ds ++ List.replicate (whole - ds.length) '0'
      let fraction := padded.drop whole
      padded.take whole ++ '.' :: (if fraction.isEmpty then ['0'] else fraction)
  else
    let e := point - 1
    let places := (toString e.natAbs).toList
    ds.take 1 ++ (if ds.length = 1 then [] else '.' :: ds.drop 1) ++
      ['e', if e < 0 then '-' else '+'] ++ List.replicate (2 - places.length) '0' ++ places

def text : Binary64 → String
  | undefined => "nan"
  | infinite negative => if negative then "-inf" else "inf"
  | finite negative m e =>
    let body :=
      if m = 0 then ['0', '.', '0']
      else
        let (digits, unit) := shortest m e
        let ds := (toString digits).toList
        let point := ds.length + unit
        layout (ds.reverse.dropWhile (· == '0')).reverse point
    String.ofList (if negative then '-' :: body else body)

end Binary64

end Micro6502
