import Micro6502.Yaml.Cursor

namespace Micro6502.Yaml.Block

inductive Chomp where
  | strip | clip | keep
  deriving DecidableEq, Repr

def activity : String := "while scanning a block scalar"

def chomp? : Option Char → Option Chomp
  | some '+' => some .keep
  | some '-' => some .strip
  | _ => none

def increment (start : Mark) (c : Cursor) : Reader (Option Nat × Cursor) :=
  match c.peek with
  | none => .ok (none, c)
  | some d =>
    if d.isDigit then
      if d = '0' then .error (.during activity start .zeroIndent c.mark)
      else .ok (some (d.toNat - '0'.toNat), c.next)
    else .ok (none, c)

def header (start : Mark) (c : Cursor) : Reader (Chomp × Option Nat × Cursor) := do
  let (chomp, increment, c) ←
    match chomp? c.peek with
    | some chomp => do
      let (n?, c) ← increment start c.next
      pure (chomp, n?, c)
    | none => do
      let (n?, c) ← increment start c
      match n?, chomp? c.peek with
      | some _, some chomp => pure (chomp, n?, c.next)
      | _, _ => pure (.clip, n?, c)
  if !c.atSpace then
    throw (.during activity start (.expected "chomping or indentation indicators" c.peek) c.mark)
  return (chomp, increment, ← c.skipLine activity start)

def marginFrom (widest : Nat) : List Char → Mark → List Char × Nat × Cursor
  | [], m => ([], widest, ⟨[], m⟩)
  | c :: rest, m =>
    if isBreak c then
      let (breaks, widest, cursor) := marginFrom widest rest (m.past c)
      (breakText c :: breaks, widest, cursor)
    else if c == ' ' then marginFrom (max widest (m.past c).column) rest (m.past c)
    else ([], widest, ⟨c :: rest, m⟩)

def breaksFrom (indent : Nat) : List Char → Mark → List Char × Cursor
  | [], m => ([], ⟨[], m⟩)
  | c :: rest, m =>
    if isBreak c then
      let (breaks, cursor) := breaksFrom indent rest (m.past c)
      (breakText c :: breaks, cursor)
    else if c == ' ' && m.column < indent then breaksFrom indent rest (m.past c)
    else ([], ⟨c :: rest, m⟩)

/-- Where the text of a scalar is read: behind the line end `last` and the empty lines `breaks`. -/
structure Lines where
  text : List Char := []
  last : List Char := []
  breaks : List Char
  cursor : Cursor

def Lines.goesOn (indent : Nat) (l : Lines) : Bool :=
  l.cursor.column == indent && !l.cursor.rest.isEmpty

/-- What stands between two lines. A single line feed is folded to a space, unless one of the lines
starts with a blank. -/
def between (folded leading : Bool) (l : Lines) : List Char :=
  if folded && l.last == ['\n'] && leading && !l.cursor.peek.any isMargin then
    if l.breaks.isEmpty then [' '] else []
  else l.last

def lines (folded : Bool) (indent : Nat) : Nat → Lines → Lines
  | 0, l => l
  | fuel + 1, l =>
    if l.goesOn indent then
      let leading := !l.cursor.peek.any isMargin
      let (line, after) := l.cursor.span (!isBreak ·)
      let (breaks, cursor) := breaksFrom indent after.next.rest after.next.mark
      let next : Lines :=
        { text := l.text ++ l.breaks ++ line, last := after.peek.toList.map breakText, breaks,
          cursor }
      if next.goesOn indent then
        lines folded indent fuel { next with text := next.text ++ between folded leading next }
      else next
    else l

def scan (folded : Bool) (parent : Int) (c : Cursor) : Reader (List Char × Cursor) := do
  let (chomp, increment?, body) ← header c.mark c.next
  let least := max 1 (parent + 1).toNat
  let (indent, breaks, cursor) := match increment? with
    | some n =>
      let indent := least + n - 1
      let (breaks, cursor) := breaksFrom indent body.rest body.mark
      (indent, breaks, cursor)
    | none =>
      let (breaks, widest, cursor) := marginFrom 0 body.rest body.mark
      (max least widest, breaks, cursor)
  let l := lines folded indent (body.rest.length + 1) { breaks, cursor }
  let tail := match chomp with
    | .strip => []
    | .clip => l.last
    | .keep => l.last ++ l.breaks
  return (l.text ++ tail, l.cursor)

end Micro6502.Yaml.Block
