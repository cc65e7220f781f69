import Micro6502.Yaml.Grammar

namespace Micro6502.Yaml.Grammar

def directives : Nat → Bool → Grammar Unit
  | 0, _ => throw (.fault none .endOfText {})
  | fuel + 1, versioned => do
    let t ← peek
    match t.lexeme with
    | .directive d =>
      advance
      match d with
      | .version major =>
        if versioned then throw (.fault none .secondVersion t.start)
        if major ≠ 1 then throw (.fault none .otherVersion t.start)
        directives fuel true
      | .handle name meaning =>
        if ((← get).handles.lookup name).isSome then
          throw (.fault none (.secondHandle name) t.start)
        modify fun r => { r with handles := (name, meaning) :: r.handles }
        directives fuel versioned
      | .other => directives fuel versioned
    | _ => return ()

def skipEnds : Nat → Grammar Unit
  | 0 => return ()
  | fuel + 1 => do
    if ← isNext (· == .documentEnd) then
      advance
      skipEnds fuel

/-- The start of a document with its directives, up to the mark in front of its content; none at the
end of the text. -/
def documentStart (fuel : Nat) : Grammar (Option Mark) := do
  skipEnds fuel
  let first ← peek
  if first.lexeme = .streamEnd then return none
  modify fun r => { r with handles := [] }
  directives fuel false
  modify fun r => { r with handles := r.handles ++ standardHandles }
  let t ← peek
  if t.lexeme ≠ .documentStart then
    throw (.fault none (.unexpected "'<document start>'" t.lexeme.name) t.start)
  advance
  return some first.start

def isOutside : Lexeme → Bool
  | .directive _ | .documentStart | .documentEnd | .streamEnd => true
  | _ => false

/-- The first document. Without a mark in front of it, it has content. -/
def firstDocument (fuel : Nat) : Grammar (Option Node) := do
  if ← isNext fun l => l == .documentStart || l == .streamEnd || l matches .directive _ then
    if (← documentStart fuel).isNone then return none
    let t ← peek
    if isOutside t.lexeme then return some (Node.absent t.start)
    return some (← node true false fuel)
  else
    modify fun r => { r with handles := standardHandles }
    return some (← node true false fuel)

def onlyDocument (fuel : Nat) : Grammar (Option Node) := do
  match ← firstDocument fuel with
  | none => return none
  | some root =>
    if ← isNext (· == .documentEnd) then advance
    match ← documentStart fuel with
    | none => return some root
    | some second =>
      throw (.during "expected a single document in the stream" root.mark .secondDocument second)

end Grammar

def Node.ofText? (text : List Char) : Reader (Option Node) := do
  let tokens := Tokens.ofText text
  -- the fuel bounds the depth of calls; of four in a row one at least reads a token
  let (root?, _) ← (Grammar.onlyDocument (4 * tokens.list.length + 8)).run { tokens }
  return root?

end Micro6502.Yaml
