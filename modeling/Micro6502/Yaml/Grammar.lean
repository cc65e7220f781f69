import Micro6502.Yaml.Lexer
import Micro6502.Yaml.Node

namespace Micro6502.Yaml

structure Reading where
  tokens : Tokens
  /-- Where an anchored node begins, and the node itself once it is complete. -/
  anchors : List (String × Mark × Option Node) := []
  handles : List (String × String) := []

abbrev Grammar := StateT Reading Reader

namespace Grammar

/-- The next token. Behind the last settled one, the fault that stopped the reading shows. -/
def peek : Grammar Token := do
  match (← get).tokens with
  | ⟨t :: _, _⟩ => return t
  | ⟨[], fault?⟩ => throw (fault?.getD (.fault none .endOfText {}))

def advance : Grammar Unit :=
  modify fun r => { r with tokens := { r.tokens with list := r.tokens.list.tail } }

def next : Grammar Token := do
  let t ← peek
  advance
  return t

def isNext (p : Lexeme → Bool) : Grammar Bool := return p (← peek).lexeme

def standardHandles : List (String × String) := [("!", "!"), ("!!", Tag.commonStart)]

structure Properties where
  anchor? : Option String := none
  tag? : Option (Option String × String) := none
  start? : Option Mark := none
  tagStart : Mark := {}

def anchorOf (p : Properties) : Grammar Properties := do
  let t ← peek
  match t.lexeme, p.anchor? with
  | .anchor name, none =>
    advance
    return { p with anchor? := some name, start? := p.start?.or (some t.start) }
  | _, _ => return p

def tagOf (p : Properties) : Grammar Properties := do
  let t ← peek
  match t.lexeme, p.tag? with
  | .tag handle? suffix, none =>
    advance
    return { p with
      tag? := some (handle?, suffix), start? := p.start?.or (some t.start), tagStart := t.start }
  | _, _ => return p

/-- A tag and an anchor in either order, each at most once. -/
def properties : Grammar Properties := do
  let p ← tagOf (← anchorOf {})
  if p.tag?.isSome && p.anchor?.isNone then anchorOf p else return p

/-- The whole name of a tag. The single exclamation mark counts as no tag. -/
def fullTag? (p : Properties) : Grammar (Option String) := do
  match p.tag? with
  | none => return none
  | some (none, suffix) => return some suffix
  | some (some handle, suffix) =>
    match (← get).handles.lookup handle with
    | some meaning => return some (meaning ++ suffix)
    | none =>
      throw (.during "while parsing a node" (p.start?.getD p.tagStart) (.undefinedHandle handle)
        p.tagStart)

def setAnchor (name : String) (start : Mark) (node? : Option Node) : Grammar Unit :=
  modify fun r => { r with anchors := (name, start, node?) :: r.anchors }

def checkAnchor (anchor? : Option String) (start : Mark) : Grammar Unit := do
  if let some name := anchor? then
    if let some (first, _) := (← get).anchors.lookup name then
      throw (.during s!"found duplicate anchor {Text.Quoted.quote name}; first occurrence" first
        .secondAnchor start)

def aliased (name : String) (mark : Mark) : Grammar Node := do
  match (← get).anchors.lookup name with
  | some (_, some node) => return node
  | some (start, none) => return .enclosing start
  | none => throw (.fault none (.undefinedAlias name) mark)

def collection (anchor? : Option String) (start : Mark) (read : Grammar Node) : Grammar Node := do
  if let some name := anchor? then setAnchor name start none
  let node ← read
  if let some name := anchor? then setAnchor name start (some node)
  return node

/-- The kind of a scalar. One without a tag is resolved by its form if it is plain, and one with the
single exclamation mark always. -/
def scalarTag (tag? : Option String) (plain : Bool) (cs : List Char) : Tag :=
  match tag? with
  | some "!" => .ofPlain cs
  | some name => .ofName name
  | none => if plain then .ofPlain cs else .str

def collectionTag (tag? : Option String) (standard : Tag) : Tag :=
  match tag? with
  | none | some "!" => standard
  | some name => .ofName name

def endsFlow (closing : Lexeme) (l : Lexeme) : Bool := l == .comma || l == closing

def endsBlock (l : Lexeme) : Bool := l == .key || l == .value || l == .blockEnd

/-- Whether another entry follows between brackets; if so, it is next, and else the closing bracket
was read. -/
def separated (activity : String) (start : Mark) (closing : Lexeme) (first : Bool) :
    Grammar Bool := do
  let t ← peek
  if t.lexeme = closing then
    advance
    return false
  if first then return true
  if t.lexeme ≠ .comma then
    throw (.during activity start (.unseparated closing.name t.lexeme.name) t.start)
  advance
  if ← isNext (· == closing) then
    advance
    return false
  return true

mutual

/-- A node. In a block a sequence or mapping may open a block of its own, and under a key the
entries of a sequence may stand at the column of the key. -/
def node (block unindented : Bool) : Nat → Grammar Node
  | 0 => throw (.fault none .endOfText {})
  | fuel + 1 => do
    let t ← peek
    if let .aliasOf name := t.lexeme then
      advance
      return ← aliased name t.start
    let p ← properties
    let tag? ← fullTag? p
    let t ← peek
    let start := p.start?.getD t.start
    let sequence (read : Grammar (List Node)) : Grammar Node :=
      collection p.anchor? start
        (return .sequence (collectionTag tag? .seq) (← read) start)
    let mapping (read : Grammar (List (Node × Node))) : Grammar Node :=
      collection p.anchor? start
        (return .mapping (collectionTag tag? .map) (← read) start)
    let scalar (plain : Bool) (cs : List Char) : Grammar Node := do
      let node := Node.scalar (scalarTag tag? plain cs) cs start
      if let some name := p.anchor? then setAnchor name start (some node)
      return node
    match t.lexeme, block with
    | .dash, _ =>
      if unindented then
        checkAnchor p.anchor? start
        return ← sequence (unindentedItems fuel)
    | .scalar cs plain, _ =>
      advance
      checkAnchor p.anchor? start
      return ← scalar plain cs
    | .openSequence, _ =>
      checkAnchor p.anchor? start
      return ← sequence (do advance; flowItems t.start true fuel)
    | .openMapping, _ =>
      checkAnchor p.anchor? start
      return ← mapping (do advance; flowEntries t.start true fuel)
    | .blockSequence, true =>
      checkAnchor p.anchor? start
      return ← sequence (do advance; blockItems t.start fuel)
    | .blockMapping, true =>
      checkAnchor p.anchor? start
      return ← mapping (do advance; blockEntries t.start fuel)
    | _, _ => pure ()
    if p.start?.isNone then
      throw (.during (if block then "while parsing a block node" else "while parsing a flow node")
        start (.unexpected "the node content" t.lexeme.name) t.start)
    checkAnchor p.anchor? start
    scalar true []

def blockItems (start : Mark) : Nat → Grammar (List Node)
  | 0 => throw (.fault none .endOfText {})
  | fuel + 1 => do
    let t ← next
    match t.lexeme with
    | .dash =>
      let item ←
        if ← isNext fun l => l == .dash || l == .blockEnd then pure (Node.absent t.stop)
        else node true false fuel
      return item :: (← blockItems start fuel)
    | .blockEnd => return []
    | l =>
      throw (.during "while parsing a block collection" start (.unexpected "<block end>" l.name)
        t.start)

/-- The entries of a sequence at the column of its key. -/
def unindentedItems : Nat → Grammar (List Node)
  | 0 => throw (.fault none .endOfText {})
  | fuel + 1 => do
    let t ← peek
    if t.lexeme ≠ .dash then return []
    advance
    let item ←
      if ← isNext fun l => l == .dash || endsBlock l then pure (Node.absent t.stop)
      else node true false fuel
    return item :: (← unindentedItems fuel)

def blockPart (mark : Token) : Nat → Grammar Node
  | 0 => throw (.fault none .endOfText {})
  | fuel + 1 => do
    if ← isNext endsBlock then return Node.absent mark.stop
    node true true fuel

def blockValue : Nat → Grammar Node
  | 0 => throw (.fault none .endOfText {})
  | fuel + 1 => do
    let t ← peek
    if t.lexeme = .value then
      advance
      blockPart t fuel
    else return Node.absent t.start

def blockEntries (start : Mark) : Nat → Grammar (List (Node × Node))
  | 0 => throw (.fault none .endOfText {})
  | fuel + 1 => do
    let t ← peek
    match t.lexeme with
    | .key =>
      advance
      let k ← blockPart t fuel
      let v ← blockValue fuel
      return (k, v) :: (← blockEntries start fuel)
    | .blockEnd =>
      advance
      return []
    | l =>
      throw (.during "while parsing a block mapping" start (.unexpected "<block end>" l.name)
        t.start)

def flowPart (closing : Lexeme) (mark : Token) : Nat → Grammar Node
  | 0 => throw (.fault none .endOfText {})
  | fuel + 1 => do
    if ← isNext (endsFlow closing) then return Node.absent mark.stop
    node false false fuel

def flowValue (closing : Lexeme) : Nat → Grammar Node
  | 0 => throw (.fault none .endOfText {})
  | fuel + 1 => do
    let t ← peek
    if t.lexeme = .value then
      advance
      flowPart closing t fuel
    else return Node.absent t.start

/-- The entries of a sequence in brackets. A key among them is a mapping of one entry. -/
def flowItems (start : Mark) (first : Bool) : Nat → Grammar (List Node)
  | 0 => throw (.fault none .endOfText {})
  | fuel + 1 => do
    if !(← separated "while parsing a flow sequence" start .closeSequence first) then return []
    let t ← peek
    let item ←
      if t.lexeme = .key then do
        advance
        let k ←
          if ← isNext (· == .value) then pure (Node.absent t.stop)
          else flowPart .closeSequence t fuel
        let v ← flowValue .closeSequence fuel
        pure (Node.mapping .map [(k, v)] t.start)
      else node false false fuel
    return item :: (← flowItems start false fuel)

/-- The entries of a mapping in brackets. One without a key mark has no value. -/
def flowEntries (start : Mark) (first : Bool) : Nat → Grammar (List (Node × Node))
  | 0 => throw (.fault none .endOfText {})
  | fuel + 1 => do
    if !(← separated "while parsing a flow mapping" start .closeMapping first) then return []
    let t ← peek
    let entry ←
      if t.lexeme = .key then do
        advance
        let k ←
          if ← isNext (· == .value) then pure (Node.absent t.stop)
          else flowPart .closeMapping t fuel
        pure (k, ← flowValue .closeMapping fuel)
      else do
        let k ← node false false fuel
        pure (k, Node.absent (← peek).start)
    return entry :: (← flowEntries start false fuel)

end

end Grammar

end Micro6502.Yaml
