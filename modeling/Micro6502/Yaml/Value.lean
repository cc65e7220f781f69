import Micro6502.Yaml.Document
import Micro6502.Yaml.Scalar

namespace Micro6502.Yaml

/-- What is built, or a fault with the level at which it shows. -/
abbrev Built := Except (Nat × Unreadable)

namespace Built

def both {α β : Type} : Built α → Built β → Built (α × β)
  | .ok a, .ok b => .ok (a, b)
  | .error e, .ok _ => .error e
  | .ok _, .error e => .error e
  | .error e, .error f => .error (if f.1 < e.1 then f else e)

def all {α : Type} : List (Built α) → Built (List α)
  | [] => .ok []
  | x :: rest => (both x (all rest)).map fun (a, more) => a :: more

def fail {α : Type} (level : Nat) (problem : Problem) (mark : Mark) : Built α :=
  .error (level, .fault none problem mark)

end Built

namespace Node

/-- The tag of a node; one that stands for a node around it has none of its own. -/
def tag? : Node → Option Tag
  | scalar t _ _ | sequence t _ _ | mapping t _ _ => some t
  | enclosing _ => none

def isCollection (n : Node) : Bool :=
  match n.tag? with
  | some .seq | some .map | none => true
  | _ => false

mutual

/-- The characters of a scalar, or the node that is none. A mapping stands for what is under its
equals sign. -/
def asScalar : Node → Except Node (List Char)
  | scalar _ cs _ => .ok cs
  | mapping t entries m => (underEquals? entries).getD (.error (mapping t entries m))
  | n => .error n

def underEquals? : List (Node × Node) → Option (Except Node (List Char))
  | [] => none
  | (k, v) :: rest => if k.tag? = some .value then some v.asScalar else underEquals? rest

end

def scalarData (level : Nat) (n : Node) : Tag → Built Data
  | .seq => .fail (level + 1) (.otherNode "sequence" n.shape) n.mark
  | .map => .fail (level + 1) (.otherNode "mapping" n.shape) n.mark
  | .merge => .fail level (.unknownTag Tag.merge.name) n.mark
  | .value => .fail level (.unknownTag Tag.value.name) n.mark
  | .other name => .fail level (.unknownTag name) n.mark
  | t => match n.asScalar with
    | .ok cs => (Scalar.read t cs).mapError fun l => (level, .literal l)
    | .error m => .fail level (.otherNode "scalar" m.shape) m.mark

/-- The entries of a mapping: those that are merged in, which its own ones override, its own ones,
and what is wrong with the merging. -/
structure Entries where
  merged : List (Built (Data × Data)) := []
  own : List (Built (Data × Data)) := []
  faults : List Unreadable := []

namespace Entries

def all (e : Entries) : List (Built (Data × Data)) := e.merged ++ e.own

def toData (level : Nat) (e : Entries) : Built Data :=
  match e.faults with
  | f :: _ => .error (level, f)
  | [] => (Built.all e.all).map fun entries =>
      .map (entries.foldl (fun entries (k, v) => Data.putEntry entries k v) [])

end Entries

/-- What is built of a key. An equals sign alone is a text there. -/
def asKey (level : Nat) (owner : Mark) (n : Node) (built : Built Data) : Built Data :=
  match n with
  | scalar .value cs _ => .ok (.text (String.ofList cs))
  | _ =>
    if n.isCollection then
      .error (level, .during "while constructing a mapping" owner .noKey n.mark)
    else built

mutual

/-- The value of a node at a level; the parts of a collection are one level below it. -/
def toData (level : Nat) : Node → Built Data
  | scalar t cs m => scalarData level (scalar t cs m) t
  | sequence t items m =>
    if t = .seq then (Built.all (itemsToData (level + 1) items)).map .list
    else scalarData level (sequence t items m) t
  | mapping t entries m =>
    if t = .map then (entriesOf (level + 1) m m entries).toData (level + 1)
    else scalarData level (mapping t entries m) t
  | enclosing m => .fail level .recursive m

def itemsToData (level : Nat) : List Node → List (Built Data)
  | [] => []
  | n :: rest => n.toData level :: itemsToData level rest

def entriesOf (level : Nat) (owner start : Mark) : List (Node × Node) → Entries
  | [] => {}
  | (k, v) :: rest =>
    let more := entriesOf level owner start rest
    if k.tag? = some .merge then
      let merged := mergedFrom level owner start v
      { more with merged := merged.all ++ more.merged, faults := merged.faults ++ more.faults }
    else
      let key := k.asKey level owner (k.toData level)
      { more with own := Built.both key (v.toData level) :: more.own }

/-- The entries of a mapping, or of several of which earlier ones override later ones. -/
def mergedFrom (level : Nat) (owner start : Mark) : Node → Entries
  | mapping _ entries m => entriesOf level owner m entries
  | sequence _ items _ => mergedFromAll level owner start items
  | n => {
      faults := [.during "while constructing a mapping" start
        (.notMerged "a mapping or list of mappings" n.shape) n.mark] }

def mergedFromAll (level : Nat) (owner start : Mark) : List Node → Entries
  | [] => {}
  | n :: rest =>
    let more := mergedFromAll level owner start rest
    match n with
    | mapping _ entries m =>
      let first := entriesOf level owner m entries
      { merged := more.merged ++ first.all, faults := first.faults ++ more.faults }
    | n => { more with
        faults := .during "while constructing a mapping" start
          (.notMerged "a mapping" n.shape) n.mark :: more.faults }

end

end Node

def parse (text : List Char) : Reader Data := do
  match ← Node.ofText? text with
  | none => return .null
  | some root => (root.toData 0).mapError (·.2)

end Micro6502.Yaml
