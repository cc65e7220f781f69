import Micro6502.Yaml.Unreadable

namespace Micro6502.Yaml

def isBreak (c : Char) : Bool :=
  c == '\n' || c == '\u0085' || c == '\u2028' || c == '\u2029'

def isMargin (c : Char) : Bool := c == ' ' || c == '\t'

def isGap (c : Char) : Bool := isMargin c || isBreak c

/-- The character that stands for a line end in a scalar. -/
def breakText (c : Char) : Char := if c == '\u0085' then '\n' else c

/-- The place behind a character; a byte order mark takes no column. -/
def Mark.past (m : Mark) (c : Char) : Mark :=
  if isBreak c then ⟨m.index + 1, m.line + 1, 0⟩
  else if c == '\ufeff' then { m with index := m.index + 1 }
  else ⟨m.index + 1, m.line, m.column + 1⟩

structure Cursor where
  rest : List Char
  mark : Mark := {}
  deriving Repr

namespace Cursor

def peek (c : Cursor) : Option Char := c.rest.head?

def column (c : Cursor) : Nat := c.mark.column

def next (c : Cursor) : Cursor :=
  match c.rest with
  | [] => c
  | d :: rest => ⟨rest, c.mark.past d⟩

def skip (c : Cursor) : Nat → Cursor
  | 0 => c
  | n + 1 => c.next.skip n

def spanFrom (p : Char → Bool) : List Char → Mark → List Char × Cursor
  | [], m => ([], ⟨[], m⟩)
  | c :: rest, m =>
    if p c then
      let (run, cursor) := spanFrom p rest (m.past c)
      (c :: run, cursor)
    else ([], ⟨c :: rest, m⟩)

theorem spanFrom_fst (p : Char → Bool) (cs : List Char) (m : Mark) :
    (spanFrom p cs m).1 = cs.takeWhile p := by
  induction cs generalizing m with
  | nil => rfl
  | cons c rest ih =>
    rw [spanFrom, List.takeWhile_cons]
    cases p c with
    | true => simp [ih]
    | false => rfl

theorem spanFrom_rest (p : Char → Bool) (cs : List Char) (m : Mark) :
    (spanFrom p cs m).2.rest = cs.dropWhile p := by
  induction cs generalizing m with
  | nil => rfl
  | cons c rest ih =>
    rw [spanFrom, List.dropWhile_cons]
    cases p c with
    | true => simp [ih]
    | false => rfl

def span (p : Char → Bool) (c : Cursor) : List Char × Cursor := spanFrom p c.rest c.mark

def skipWhile (p : Char → Bool) (c : Cursor) : Cursor := (c.span p).2

def atLineEnd (c : Cursor) : Bool := c.peek.all isBreak

def atSpace (c : Cursor) : Bool := c.peek.all fun d => d == ' ' || isBreak d

def atGap (c : Cursor) : Bool := c.peek.all isGap

def atTriple (mark : Char) (c : Cursor) : Bool :=
  c.rest.take 3 == [mark, mark, mark] && c.rest[3]?.all isGap

def atMarker (c : Cursor) : Bool := c.column == 0 && (c.atTriple '-' || c.atTriple '.')

/-- Past spaces, comments and line ends; also tells whether a line end was passed. -/
def skipBlanksFrom (inComment crossed : Bool) : List Char → Mark → Cursor × Bool
  | [], m => (⟨[], m⟩, crossed)
  | c :: rest, m =>
    if isBreak c then skipBlanksFrom false true rest (m.past c)
    else if inComment || c == ' ' then skipBlanksFrom inComment crossed rest (m.past c)
    else if c == '#' then skipBlanksFrom true crossed rest (m.past c)
    else (⟨c :: rest, m⟩, crossed)

def skipBlanks (c : Cursor) : Cursor × Bool := skipBlanksFrom false false c.rest c.mark

def skipLine (activity : String) (start : Mark) (c : Cursor) : Reader Cursor :=
  let c := c.skipWhile (· == ' ')
  let c := if c.peek == some '#' then c.skipWhile (!isBreak ·) else c
  if c.atLineEnd then .ok c.next
  else .error (.during activity start (.expected "a comment or a line break" c.peek) c.mark)

end Cursor

structure Fold where
  breaks : List Char
  cursor : Cursor
  /-- Whether they end at the start or the end of a document. -/
  atMarker : Bool

def foldFrom (isMargin : Char → Bool) : List Char → Mark → Fold
  | [], m => ⟨[], ⟨[], m⟩, false⟩
  | c :: rest, m =>
    let here : Cursor := ⟨c :: rest, m⟩
    if here.atMarker then ⟨[], here, true⟩
    else if isBreak c then
      let fold := foldFrom isMargin rest (m.past c)
      { fold with breaks := breakText c :: fold.breaks }
    else if isMargin c then foldFrom isMargin rest (m.past c)
    else ⟨[], here, false⟩

def Cursor.fold (isMargin : Char → Bool) (c : Cursor) : Fold := foldFrom isMargin c.rest c.mark

/-- Line ends inside a scalar: a single line feed is a space, in front of others it is dropped. -/
def foldText : List Char → List Char
  | [] => []
  | '\n' :: [] => [' ']
  | '\n' :: more => more
  | breaks => breaks

end Micro6502.Yaml
