import Micro6502.Yaml.Cursor

namespace Micro6502.Yaml.Plain

def isFlowMark (c : Char) : Bool :=
  c == ',' || c == '[' || c == ']' || c == '\x7b' || c == '\x7d'

def startMarks : List Char := "-?:,[]\x7b\x7d#&*!|>'\"%@\x60".toList

def startsAt (inFlow : Bool) (c : Cursor) : Bool :=
  match c.peek with
  | none => false
  | some d =>
    !(isGap d || startMarks.contains d) ||
      !c.next.atGap && (d == '-' || !inFlow && (d == '?' || d == ':'))

def endsBefore (inFlow : Bool) (c : Char) (following : Option Char) : Bool :=
  isGap c ||
    (c == ':' && following.all fun d => isGap d || inFlow && isFlowMark d) ||
    (inFlow && (isFlowMark c || c == '?'))

def wordFrom (inFlow : Bool) : List Char → Mark → List Char × Cursor
  | [], m => ([], ⟨[], m⟩)
  | c :: rest, m =>
    if endsBefore inFlow c rest.head? then ([], ⟨c :: rest, m⟩)
    else
      let (word, cursor) := wordFrom inFlow rest (m.past c)
      (c :: word, cursor)

structure Gap where
  text : List Char
  cursor : Cursor
  crossed : Bool

/-- The gap behind a word; it has no text if nothing of the scalar can follow. -/
def gapAt (c : Cursor) : Gap :=
  let (spaces, after) := c.span (· == ' ')
  if after.peek.any isBreak then
    let fold := after.fold (· == ' ')
    ⟨if fold.atMarker then [] else foldText fold.breaks, fold.cursor, true⟩
  else ⟨spaces, after, false⟩

/-- A plain scalar and the place where the reading of it ended; `crossed` tells whether a line ended
in the gap behind it. -/
structure Scan where
  text : List Char
  cursor : Cursor
  crossed : Bool

/-- Further words of a plain scalar behind a gap. On further lines they stand at the column `least`
or to the right of it, except between brackets. -/
def more (inFlow : Bool) (least : Nat) : Nat → List Char → Gap → Scan
  | 0, text, gap => ⟨text, gap.cursor, gap.crossed⟩
  | fuel + 1, text, gap =>
    let c := gap.cursor
    let (word, after) := wordFrom inFlow c.rest c.mark
    let isOver := gap.text.isEmpty || c.peek == some '#' || !inFlow && c.column < least
    if isOver || word.isEmpty then ⟨text, c, gap.crossed⟩
    else more inFlow least fuel (text ++ gap.text ++ word) (gapAt after)

def scan (inFlow : Bool) (least : Nat) (c : Cursor) : Scan :=
  let (word, after) := wordFrom inFlow c.rest c.mark
  more inFlow least c.rest.length word (gapAt after)

end Micro6502.Yaml.Plain
