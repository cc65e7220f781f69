import Micro6502.Yaml.Text.Block
import Micro6502.Yaml.Text.Name
import Micro6502.Yaml.Text.Plain
import Micro6502.Yaml.Text.Quoted

namespace Micro6502.Yaml

/-- What may turn out to be a key: the place of its first token among all tokens. In a block it must
turn out to be one if its column is that of the block. -/
structure PendingKey where
  number : Nat
  required : Bool
  mark : Mark
  deriving Repr

/-- A key does not go over a line end nor over more than 1024 characters. -/
def PendingKey.isStale (key : PendingKey) (m : Mark) : Bool :=
  key.mark.line ≠ m.line || 1024 < m.index - key.mark.index

structure Lexer where
  cursor : Cursor
  tokens : Array Token := #[]
  /-- The columns of the open blocks, the innermost first. -/
  blocks : List Nat := []
  /-- What may be a key inside the innermost brackets. -/
  pending : Option PendingKey := none
  /-- The same for the brackets around them, and for the block around them all. -/
  outer : List (Option PendingKey) := []
  keyAllowed : Bool := true
  finished : Bool := false
  deriving Repr

namespace Lexer

def inFlow (l : Lexer) : Bool := !l.outer.isEmpty

def mark (l : Lexer) : Mark := l.cursor.mark

def indent (l : Lexer) : Int := (l.blocks.head?.map Int.ofNat).getD (-1)

def push (l : Lexer) (lexeme : Lexeme) (start stop : Mark) : Lexer :=
  { l with tokens := l.tokens.push ⟨lexeme, start, stop⟩ }

def pushHere (l : Lexer) (lexeme : Lexeme) : Lexer := l.push lexeme l.mark l.mark

def pushTo (l : Lexer) (lexeme : Lexeme) (cursor : Cursor) : Lexer :=
  { l.push lexeme l.mark cursor.mark with cursor }

def pushMarks (l : Lexer) (lexeme : Lexeme) (length : Nat) : Lexer :=
  l.pushTo lexeme (l.cursor.skip length)

def insert (l : Lexer) (number : Nat) (lexeme : Lexeme) (m : Mark) : Lexer :=
  { l with tokens := l.tokens.insertIdxIfInBounds number ⟨lexeme, m, m⟩ }

/-- How many tokens are settled, because nothing more will be put in front of them. -/
def settled (l : Lexer) : Nat :=
  ((l.pending :: l.outer).filterMap (·.map (·.number))).foldl min l.tokens.size

def noColon (l : Lexer) (key : PendingKey) : Unreadable :=
  .during "while scanning a simple key" key.mark .noColon l.mark

def dropKey (l : Lexer) : Reader Lexer :=
  match l.pending with
  | some key => if key.required then .error (l.noColon key) else .ok { l with pending := none }
  | none => .ok l

def dropStale (l : Lexer) : Reader Lexer :=
  let stale (key : PendingKey) : Bool := key.isStale l.mark
  match ((l.pending :: l.outer).filterMap id).find? fun key => key.required && stale key with
  | some key => .error (l.noColon key)
  | none => .ok { l with
      pending := l.pending.filter (!stale ·), outer := l.outer.map (·.filter (!stale ·)) }

def noteKey (l : Lexer) : Reader Lexer :=
  if l.keyAllowed then do
    let l ← l.dropKey
    let required := !l.inFlow && l.indent == (l.cursor.column : Int)
    return { l with pending := some ⟨l.tokens.size, required, l.mark⟩ }
  else .ok l

/-- Closes the blocks to the right of a column; between brackets columns do not count. -/
def closeBlocks (l : Lexer) (column : Int) : Lexer :=
  if l.inFlow then l
  else
    let isClosed (block : Nat) : Bool := column < block
    let l := (l.blocks.takeWhile isClosed).foldl (fun l _ => l.pushHere .blockEnd) l
    { l with blocks := l.blocks.dropWhile isClosed }

def openBlock (l : Lexer) (lexeme : Lexeme) (number : Nat) (m : Mark) : Lexer :=
  if l.indent < (m.column : Int) then
    { l.insert number lexeme m with blocks := m.column :: l.blocks }
  else l

def endBlocks (l : Lexer) : Reader Lexer := do
  return { ← (l.closeBlocks (-1)).dropKey with keyAllowed := false }

def streamEnd (l : Lexer) : Reader Lexer := do
  let l ← l.endBlocks
  return { l.pushHere .streamEnd with
    pending := none, outer := l.outer.map fun _ => none, finished := true }

def directive (l : Lexer) : Reader Lexer := do
  let l ← l.endBlocks
  let (d, c) ← Name.directive l.cursor
  let behind ← c.skipLine Name.directiveActivity l.mark
  return { l.push (.directive d) l.mark c.mark with cursor := behind }

def documentMarker (l : Lexer) (lexeme : Lexeme) : Reader Lexer := do
  return (← l.endBlocks).pushMarks lexeme 3

def openBracket (l : Lexer) (lexeme : Lexeme) : Reader Lexer := do
  let l ← l.noteKey
  return { l.pushMarks lexeme 1 with
    pending := none, outer := l.pending :: l.outer, keyAllowed := true }

def closeBracket (l : Lexer) (lexeme : Lexeme) : Reader Lexer := do
  let l ← l.dropKey
  return { l.pushMarks lexeme 1 with
    pending := (l.outer.head?).join, outer := l.outer.tail, keyAllowed := false }

def comma (l : Lexer) : Reader Lexer := do
  return { (← l.dropKey).pushMarks .comma 1 with keyAllowed := true }

def blockMark (l : Lexer) (opening lexeme : Lexeme) (problem : Problem) (keyAllowed : Bool) :
    Reader Lexer := do
  let l ←
    if l.inFlow then pure l
    else if l.keyAllowed then pure (l.openBlock opening l.tokens.size l.mark)
    else throw (.fault none problem l.mark)
  return { (← l.dropKey).pushMarks lexeme 1 with keyAllowed }

def colon (l : Lexer) : Reader Lexer := do
  match l.pending with
  | some key =>
    let l := l.insert key.number .key key.mark
    let l := if l.inFlow then l else l.openBlock .blockMapping key.number key.mark
    return { l.pushMarks .value 1 with pending := none, keyAllowed := false }
  | none => l.blockMark .blockMapping .value .valueHere (!l.inFlow)

def nodeStart (l : Lexer) (scan : Cursor → Reader (Lexeme × Cursor)) : Reader Lexer := do
  let l ← l.noteKey
  let (lexeme, cursor) ← scan l.cursor
  return { l.pushTo lexeme cursor with keyAllowed := false }

def blockScalar (l : Lexer) (folded : Bool) : Reader Lexer := do
  let l ← l.dropKey
  let (cs, cursor) ← Block.scan folded l.indent l.cursor
  return { l.pushTo (.scalar cs false) cursor with keyAllowed := true }

def plainScalar (l : Lexer) : Reader Lexer := do
  let l ← l.noteKey
  let s := Plain.scan l.inFlow (l.indent + 1).toNat l.cursor
  return { l.pushTo (.scalar s.text true) s.cursor with keyAllowed := s.crossed }

def quotedScalar (double : Bool) (c : Cursor) : Reader (Lexeme × Cursor) := do
  let (cs, cursor) ← Quoted.scan double c
  return (.scalar cs false, cursor)

def aliasToken (c : Cursor) : Reader (Lexeme × Cursor) := do
  let (name, cursor) ← Name.anchor "while scanning an alias" c
  return (.aliasOf name, cursor)

def anchorToken (c : Cursor) : Reader (Lexeme × Cursor) := do
  let (name, cursor) ← Name.anchor "while scanning an anchor" c
  return (.anchor name, cursor)

def skipBlanks (l : Lexer) : Lexer :=
  let c := if l.mark.index = 0 && l.cursor.peek == some '\ufeff' then l.cursor.next else l.cursor
  let (cursor, crossed) := c.skipBlanks
  { l with cursor, keyAllowed := l.keyAllowed || crossed && !l.inFlow }

def token (l : Lexer) (d : Char) : Reader Lexer :=
  let c := l.cursor
  let marksEntry := c.next.atGap
  match d with
  | '[' => l.openBracket .openSequence
  | '{' => l.openBracket .openMapping
  | ']' => l.closeBracket .closeSequence
  | '}' => l.closeBracket .closeMapping
  | ',' => l.comma
  | '*' => l.nodeStart aliasToken
  | '&' => l.nodeStart anchorToken
  | '!' => l.nodeStart Name.tag
  | '\'' => l.nodeStart (quotedScalar false)
  | '"' => l.nodeStart (quotedScalar true)
  | _ =>
    if d == '-' && marksEntry then l.blockMark .blockSequence .dash .entryHere true
    else if d == '?' && (l.inFlow || marksEntry) then
      l.blockMark .blockMapping .key .keyHere (!l.inFlow)
    else if d == ':' && (l.inFlow || marksEntry) then l.colon
    else if d == '|' && !l.inFlow then l.blockScalar false
    else if d == '>' && !l.inFlow then l.blockScalar true
    else if Plain.startsAt l.inFlow c then l.plainScalar
    else
      .error (.fault (some ⟨"while scanning for the next token", none⟩) (.noToken (some d)) l.mark)

def step (l : Lexer) : Reader Lexer := do
  let l ← l.skipBlanks.dropStale
  let l := l.closeBlocks l.cursor.column
  match l.cursor.peek with
  | none => l.streamEnd
  | some d =>
    if d == '%' && l.cursor.column == 0 then l.directive
    else if l.cursor.atMarker then
      l.documentMarker (if d == '-' then .documentStart else .documentEnd)
    else l.token d

/-- Reads tokens up to the end or to a fault. Tokens that were not settled before the fault are
lost with it. -/
def run : Nat → Lexer → Tokens
  | 0, l => ⟨l.tokens.toList, none⟩
  | fuel + 1, l =>
    if l.finished then ⟨l.tokens.toList, none⟩
    else match l.step >>= dropStale with
      | .ok next => run fuel next
      | .error e => ⟨l.tokens.toList.take l.settled, some e⟩

end Lexer

def isControl (c : Char) : Bool :=
  let n := c.toNat
  !(n == 0x09 || n == 0x0A || n == 0x0D || (0x20 ≤ n && n ≤ 0x7E) || n == 0x85 ||
    (0xA0 ≤ n && n ≤ 0xFFFD) || 0x10000 ≤ n)

def Tokens.ofText (text : List Char) : Tokens :=
  match text.findIdx? isControl with
  | some position => ⟨[], some (.control ((text[position]?.map Char.toNat).getD 0) position)⟩
  | none => Lexer.run (text.length + 2) { cursor := ⟨text, {}⟩ }

end Micro6502.Yaml
