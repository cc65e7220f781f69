import Micro6502.Text.Integer
import Micro6502.Yaml.Cursor

namespace Micro6502.Yaml.Quoted

def named? : Char → Option Char
  | '0' => some '\x00'
  | 'a' => some '\x07'
  | 'b' => some '\x08'
  | 't' => some '\t'
  | '\t' => some '\t'
  | 'n' => some '\n'
  | 'v' => some '\x0b'
  | 'f' => some '\x0c'
  | 'r' => some '\r'
  | 'e' => some '\x1b'
  | ' ' => some ' '
  | '"' => some '"'
  | '\\' => some '\\'
  | '/' => some '/'
  | 'N' => some '\u0085'
  | '_' => some '\u00a0'
  | 'L' => some '\u2028'
  | 'P' => some '\u2029'
  | _ => none

def width? : Char → Option Nat
  | 'x' => some 2
  | 'u' => some 4
  | 'U' => some 8
  | _ => none

/-- The number of so many hexadecimal digits at the front of a text, or what stands there instead of
a digit. -/
def hexNumber (width : Nat) (cs : List Char) : Except (Option Char) Nat :=
  match (List.range width).find? fun k => (cs[k]?.bind Text.Hex.digit?).isNone with
  | some k => .error cs[k]?
  | none => .ok (Text.Integer.ofDigits 16 ((cs.take width).filterMap Text.Hex.digit?))

/-- The character of an escape from behind its backslash, none for an escaped line end, and the
place behind it. -/
def escape (start : Mark) (c : Cursor) : Reader (List Char × Cursor) :=
  let fail (problem : Problem) (place : Cursor) : Reader (List Char × Cursor) :=
    .error (.during "while scanning a double-quoted scalar" start problem place.mark)
  match c.peek with
  | none => fail (.unknownEscape none) c
  | some d =>
    match named? d, width? d with
    | some e, _ => .ok ([e], c.next)
    | none, some width =>
      let digits := c.next
      match hexNumber width digits.rest with
      | .error found =>
        fail (.expected s!"escape sequence of {width} hexadecimal numbers" found) digits
      | .ok n =>
        if 0x110000 ≤ n then .error (.literal .codePoint)
        else .ok ([Char.ofNat n], digits.skip width)
    | none, none => fail (.unknownEscape (some d)) c

/-- Line ends inside quotes; a document may not start or end there. -/
def breaks (start : Mark) (c : Cursor) : Reader (List Char × Cursor) :=
  let fold := c.fold isMargin
  if fold.atMarker then
    .error (.during "while scanning a quoted scalar" start .documentMarker fold.cursor.mark)
  else .ok (fold.breaks, fold.cursor)

def rest (double : Bool) (start : Mark) : Nat → Cursor → List Char → Reader (List Char × Cursor)
  | 0, c, _ => .error (.during "while scanning a quoted scalar" start .endOfText c.mark)
  | fuel + 1, c, acc => do
    let (spaces, after) := c.span isMargin
    match after.peek with
    | none => .error (.during "while scanning a quoted scalar" start .endOfText after.mark)
    | some d =>
      if isBreak d then
        let (breaks, after) ← breaks start after
        rest double start fuel after ((foldText breaks).reverse ++ acc)
      else
        let acc := spaces.reverse ++ acc
        if d == (if double then '"' else '\'') then
          if !double && after.next.peek == some '\'' then
            rest double start fuel (after.skip 2) ('\'' :: acc)
          else .ok (acc.reverse, after.next)
        else if double && d == '\\' then
          if after.next.peek.any isBreak then
            let (breaks, after) ← breaks start after.next
            rest double start fuel after ((breaks.drop 1).reverse ++ acc)
          else
            let (cs, after) ← escape start after.next
            rest double start fuel after (cs.reverse ++ acc)
        else rest double start fuel after.next (d :: acc)

def scan (double : Bool) (c : Cursor) : Reader (List Char × Cursor) :=
  rest double c.mark (c.rest.length + 1) c.next []

end Micro6502.Yaml.Quoted
