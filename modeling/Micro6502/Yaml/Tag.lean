import Micro6502.Moment

namespace Micro6502.Yaml

inductive Tag where
  | null
  | bool
  | int
  | float
  | timestamp
  | str
  | seq
  | map
  /-- The key under which another mapping is merged in. -/
  | merge
  | value
  | other (name : String)
  deriving DecidableEq, Repr

namespace Tag

def commonStart : String := "tag:yaml.org,2002:"

def common : List (String × Tag) := [
  ("null", null), ("bool", bool), ("int", int), ("float", float), ("timestamp", timestamp),
  ("str", str), ("seq", seq), ("map", map), ("merge", merge), ("value", value)]

def name : Tag → String
  | other name => name
  | t => commonStart ++ ((common.find? (·.2 == t)).map (·.1)).getD ""

def ofName (name : String) : Tag :=
  ((common.find? fun (short, _) => commonStart ++ short == name).map (·.2)).getD (other name)

def boolWords : List String := [
  "yes", "Yes", "YES", "no", "No", "NO", "true", "True", "TRUE", "false", "False", "FALSE",
  "on", "On", "ON", "off", "Off", "OFF"]

def nullWords : List String := ["", "~", "null", "Null", "NULL"]

def infinityWords : List String := ["inf", "Inf", "INF"]

def undefinedWords : List String := ["nan", "NaN", "NAN"]

def dropSign : List Char → List Char
  | '-' :: rest => rest
  | '+' :: rest => rest
  | cs => cs

def isPlace (c : Char) : Bool := c.isDigit || c == '_'

def isSixtieth : List Char → Bool
  | [c] => c.isDigit
  | [c, d] => '0' ≤ c && c ≤ '5' && d.isDigit
  | _ => false

/-- A whole number: binary behind `0b`, hexadecimal behind `0x`, octal behind a zero, decimal, or
decimal with sixtieths behind colons. -/
def isInt (cs : List Char) : Bool :=
  match dropSign cs with
  | ['0'] => true
  | '0' :: 'b' :: digits => !digits.isEmpty && digits.all fun c => c == '0' || c == '1' || c == '_'
  | '0' :: 'x' :: digits =>
    !digits.isEmpty && digits.all fun c => isPlace c || 'a' ≤ c.toLower && c.toLower ≤ 'f'
  | '0' :: digits => digits.all fun c => '0' ≤ c && c ≤ '7' || c == '_'
  | cs =>
    match cs.splitOn ':' with
    | first :: sixtieths =>
      first.head?.any Char.isDigit && first.all isPlace && sixtieths.all isSixtieth
    | [] => false

def isExponent : List Char → Bool
  | [] => true
  | mark :: sign :: digits =>
    (mark == 'e' || mark == 'E') && (sign == '-' || sign == '+') && !digits.isEmpty &&
      digits.all Char.isDigit
  | _ => false

def isSixtiethsWithPoint (parts : List (List Char)) : Bool :=
  match parts.reverse with
  | last :: sixtieths =>
    isSixtieth (last.takeWhile (· ≠ '.')) && sixtieths.all isSixtieth &&
      match last.dropWhile (· ≠ '.') with
      | _ :: fraction => fraction.all isPlace
      | [] => false
  | [] => false

def isFloat (cs : List Char) : Bool :=
  let body := dropSign cs
  let signed := body.length < cs.length
  let whole := body.takeWhile isPlace
  match body.dropWhile isPlace with
  | '.' :: rest =>
    if whole.isEmpty then
      let word := String.ofList rest
      infinityWords.contains word || !signed && (undefinedWords.contains word ||
        rest.head?.any Char.isDigit && isExponent (rest.dropWhile isPlace))
    else whole.head?.any Char.isDigit && isExponent (rest.dropWhile isPlace)
  | ':' :: rest => whole.head?.any Char.isDigit && isSixtiethsWithPoint (rest.splitOn ':')
  | _ => false

/-- A scalar without the line feed at its end; a lone line feed is one of its own. -/
def dropFinalBreak (cs : List Char) : List Char :=
  if 1 < cs.length && cs.getLast? == some '\n' then cs.dropLast else cs

def ofPlain (cs : List Char) : Tag :=
  let cs := dropFinalBreak cs
  let word := String.ofList cs
  if boolWords.contains word then bool
  else if isFloat cs then float
  else if isInt cs then int
  else if word = "<<" then merge
  else if nullWords.contains word then null
  else if Moment.isWritten cs then timestamp
  else if word = "=" then value
  else str

end Tag

end Micro6502.Yaml
