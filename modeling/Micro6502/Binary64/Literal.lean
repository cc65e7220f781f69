import Micro6502.Binary64
import Micro6502.Text.Case
import Micro6502.Text.Integer

namespace Micro6502.Binary64

def infinityWords : List String := ["inf", "infinity"]

def spanDigits (cs : List Char) : List Nat × List Char :=
  let isDigit (c : Char) := (Text.Integer.digit? 10 c).isSome
  ((cs.takeWhile isDigit).filterMap (Text.Integer.digit? 10), cs.dropWhile isDigit)

def exponent? : List Char → Option Int
  | [] => some 0
  | mark :: rest =>
    if mark = 'e' ∨ mark = 'E' then
      let (negative, rest) := match rest with
        | '-' :: rest => (true, rest)
        | '+' :: rest => (false, rest)
        | rest => (false, rest)
      match spanDigits rest with
      | ([], _) => none
      | (digits, []) =>
        let n : Int := Text.Integer.ofDigits 10 digits
        some (if negative then -n else n)
      | _ => none
    else none

/-- Digits around a point, some of which must be there, and an exponent; or a word for what is not
finite. -/
def unsigned? (negative : Bool) (cs : List Char) : Option Binary64 :=
  let word := Text.lower (String.ofList cs)
  if infinityWords.contains word then some (infinite negative)
  else if word = "nan" then some undefined
  else
    let (whole, rest) := spanDigits cs
    let (fraction, rest) := match rest with
      | '.' :: rest => spanDigits rest
      | rest => ([], rest)
    if whole.isEmpty && fraction.isEmpty then none
    else (exponent? rest).map fun e =>
      ofDecimal negative (Text.Integer.ofDigits 10 (whole ++ fraction)) (e - fraction.length)

def parse? (cs : List Char) : Option Binary64 :=
  match Text.strip cs with
  | '-' :: rest => unsigned? true rest
  | '+' :: rest => unsigned? false rest
  | body => unsigned? false body

end Micro6502.Binary64
