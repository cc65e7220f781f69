import Micro6502.Binary64.Literal
import Micro6502.Data
import Micro6502.Yaml.Tag
import Micro6502.Yaml.Unreadable

namespace Micro6502.Yaml.Scalar

def takeSign : List Char → Bool × List Char
  | '-' :: rest => (true, rest)
  | '+' :: rest => (false, rest)
  | cs => (false, cs)

def digits (base : Nat) (cs : List Char) : Except BadLiteral Int :=
  match Text.Integer.parse? base cs with
  | some n => .ok n
  | none =>
    match Text.Integer.digits? base (takeSign (Text.strip cs)).2 with
    | some ds => .error (.manyDigits ds.length)
    | none => .error (.digits base cs)

/-- Places joined by colons, each worth sixty of the next. -/
def sexagesimal (parts : List (List Char)) : Except BadLiteral Int :=
  parts.foldlM (fun n part => do return n * 60 + (← digits 10 part)) 0

/-- A whole number; underscores in it do not count. -/
def integer (cs : List Char) : Except BadLiteral Int := do
  let (negative, body) := takeSign (cs.filter (· ≠ '_'))
  let n ← match body with
    | [] => throw .empty
    | '0' :: 'b' :: rest => digits 2 rest
    | '0' :: 'x' :: rest => digits 16 rest
    | ['0'] => pure 0
    | '0' :: _ => digits 8 body
    | _ => if body.contains ':' then sexagesimal (body.splitOn ':') else digits 10 body
  return if negative then -n else n

def fraction (cs : List Char) : Except BadLiteral Binary64 :=
  match Binary64.parse? cs with
  | some x => .ok x
  | none => .error (.fraction cs)

/-- Places from the last on, each weighted and added to the sum of those behind it; every step is
rounded. -/
def weighted : Binary64 → Nat → List Binary64 → Except BadLiteral Binary64
  | sum, _, [] => .ok sum
  | sum, weight, x :: rest =>
    let w := Binary64.ofNat weight
    if w.isFinite then weighted (sum.add (x.mul w)) (weight * 60) rest else .error .weight

def real (cs : List Char) : Except BadLiteral Binary64 := do
  let plain := Text.lower (String.ofList (cs.filter (· ≠ '_')))
  let (negative, body) := takeSign plain.toList
  let x ←
    if plain.isEmpty then throw .empty
    else if String.ofList body = ".inf" then pure (.infinite false)
    else if String.ofList body = ".nan" then pure .undefined
    else if body.contains ':' then do
      let places ← (body.splitOn ':').mapM fraction
      weighted (.zero false) 1 places.reverse
    else fraction body
  return if negative then x.negate else x

def truth (cs : List Char) : Except BadLiteral Bool :=
  let word := Text.lower (String.ofList cs)
  if ["yes", "true", "on"].contains word then .ok true
  else if ["no", "false", "off"].contains word then .ok false
  else .error (.truth word.toList)

def moment (cs : List Char) : Except BadLiteral Moment :=
  match Moment.parts? (Tag.dropFinalBreak cs) with
  | none => .error .notMoment
  | some (date, time?) => (Moment.ofParts date time?).mapError .moment

def read (tag : Tag) (cs : List Char) : Except BadLiteral Data :=
  match tag with
  | .null => .ok .null
  | .bool => (truth cs).map .bool
  | .int => (integer cs).map .int
  | .float => (real cs).map .real
  | .timestamp => (moment cs).map .moment
  | _ => .ok (.text (String.ofList cs))

end Micro6502.Yaml.Scalar
