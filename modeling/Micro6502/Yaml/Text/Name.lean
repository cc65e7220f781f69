import Micro6502.Text.Integer
import Micro6502.Yaml.Cursor
import Micro6502.Yaml.Token

namespace Micro6502.Yaml.Name

def isNameChar (c : Char) : Bool := c.isAlphanum || c == '-' || c == '_'

def mayFollow (c : Char) : Bool :=
  isGap c || ['?', ':', ',', ']', '}', '%', '@', '\x60'].contains c

def isUriChar (c : Char) : Bool :=
  c.isAlphanum || "-;/?:@&=+$,_.!~*'()[]".toList.contains c

def anchor (activity : String) (c : Cursor) : Reader (String × Cursor) :=
  let (name, after) := c.next.span isNameChar
  if name.isEmpty || !after.peek.all mayFollow then
    .error (.during activity c.mark (.expected "alphabetic or numeric character" after.peek)
      after.mark)
  else .ok (String.ofList name, after)

def escapedBytes (activity : String) (start : Mark) : Nat → Cursor → Reader (List UInt8 × Cursor)
  | 0, c => .ok ([], c)
  | fuel + 1, c =>
    if c.peek ≠ some '%' then .ok ([], c)
    else
      let digits := c.next
      let bad (found : Cursor) : Reader (List UInt8 × Cursor) :=
        .error (.during activity start
          (.expected "URI escape sequence of 2 hexadecimal numbers" found.peek) digits.mark)
      match digits.peek.bind Text.Hex.digit?, digits.next.peek.bind Text.Hex.digit? with
      | some high, some low => do
        let (more, c) ← escapedBytes activity start fuel (digits.skip 2)
        return (UInt8.ofNat (16 * high + low) :: more, c)
      | none, _ => bad digits
      | _, none => bad digits.next

def escaped (activity : String) (start : Mark) (c : Cursor) : Reader (List Char × Cursor) := do
  let (bytes, after) ← escapedBytes activity start c.rest.length c
  match Text.Utf8.decode bytes with
  | .ok cs => return (cs, after)
  | .error f => throw (.during activity start (.notText f) c.mark)

def uriParts (activity : String) (start : Mark) :
    Nat → Cursor → List Char → Reader (List Char × Cursor)
  | 0, c, acc => .ok (acc, c)
  | fuel + 1, c, acc => do
    let (run, c) := c.span isUriChar
    let acc := acc ++ run
    if c.peek = some '%' then
      let (cs, c) ← escaped activity start c
      uriParts activity start fuel c (acc ++ cs)
    else return (acc, c)

/-- The longer part of a tag; `owner` is what the tag belongs to. -/
def uri (owner : String) (start : Mark) (c : Cursor) : Reader (String × Cursor) := do
  let (cs, after) ← uriParts ("while scanning a " ++ owner) start (c.rest.length + 1) c []
  if after.mark = c.mark then
    throw (.during ("while parsing a " ++ owner) start (.expected "URI" c.peek) c.mark)
  return (String.ofList cs, after)

/-- A short name between exclamation marks; the first of them alone, where a space follows it. -/
def handle (owner : String) (start : Mark) (c : Cursor) : Reader (String × Cursor) := do
  let fail (place : Cursor) : Reader (String × Cursor) :=
    .error (.during ("while scanning a " ++ owner) start (.expected "'!'" place.peek) place.mark)
  if c.peek ≠ some '!' then fail c
  else if c.next.peek = some ' ' then return ("!", c.next)
  else
    let (name, after) := c.next.span isNameChar
    if after.peek ≠ some '!' then fail after
    else return (String.ofList ('!' :: name ++ ['!']), after.next)

def hasHandle (c : Cursor) : Bool :=
  (c.next.span fun d => d != ' ' && !isBreak d).1.contains '!'

def tag (c : Cursor) : Reader (Lexeme × Cursor) := do
  let start := c.mark
  let (handle?, suffix, after) ←
    if c.next.peek = some '<' then do
      let (suffix, after) ← uri "tag" start (c.skip 2)
      if after.peek ≠ some '>' then
        throw (.during "while parsing a tag" start (.expected "'>'" after.peek) after.mark)
      pure (none, suffix, after.next)
    else if c.next.atGap then pure (none, "!", c.next)
    else do
      let (handle, after) ← if hasHandle c then handle "tag" start c else pure ("!", c.next)
      let (suffix, after) ← uri "tag" start after
      pure (some handle, suffix, after)
  if !after.atSpace then
    throw (.during "while scanning a tag" start (.expected "' '" after.peek) after.mark)
  return (.tag handle? suffix, after)

def directiveActivity : String := "while scanning a directive"

def number (start : Mark) (c : Cursor) : Reader (Nat × Cursor) := do
  let (digits, after) := c.span Char.isDigit
  if digits.isEmpty then
    throw (.during directiveActivity start (.expected "a digit" c.peek) c.mark)
  if Text.Integer.decimalLimit < digits.length then
    throw (.literal (.manyDigits digits.length))
  return (Text.Integer.ofDigits 10 (digits.filterMap Text.Hex.digit?), after)

def version (start : Mark) (c : Cursor) : Reader (Directive × Cursor) := do
  let (major, after) ← number start (c.skipWhile (· == ' '))
  if after.peek ≠ some '.' then
    throw (.during directiveActivity start (.expected "a digit or '.'" after.peek) after.mark)
  let (_, after) ← number start after.next
  if !after.atSpace then
    throw (.during directiveActivity start (.expected "a digit or ' '" after.peek) after.mark)
  return (.version major, after)

def handleMeaning (start : Mark) (c : Cursor) : Reader (Directive × Cursor) := do
  let noSpace (place : Cursor) : Unreadable :=
    .during directiveActivity start (.expected "' '" place.peek) place.mark
  let (name, after) ← handle "directive" start (c.skipWhile (· == ' '))
  if after.peek ≠ some ' ' then throw (noSpace after)
  let (meaning, after) ← uri "directive" start (after.skipWhile (· == ' '))
  if !after.atSpace then throw (noSpace after)
  return (.handle name meaning, after)

def directive (c : Cursor) : Reader (Directive × Cursor) := do
  let start := c.mark
  let (name, after) := c.next.span isNameChar
  if name.isEmpty || !after.atSpace then
    throw (.during directiveActivity start
      (.expected "alphabetic or numeric character" after.peek) after.mark)
  match String.ofList name with
  | "YAML" => version start after
  | "TAG" => handleMeaning start after
  | _ => return (.other, after.skipWhile (!isBreak ·))

end Micro6502.Yaml.Name
