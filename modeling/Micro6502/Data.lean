import Micro6502.Binary64
import Micro6502.Moment
import Micro6502.Text.Integer
import Micro6502.Text.Quoted

namespace Micro6502

/-- A mapping keeps its entries in the order in which they were given. -/
inductive Data where
  | null
  | bool (b : Bool)
  | int (n : Int)
  | real (x : Binary64)
  | text (s : String)
  | moment (m : Moment)
  | list (items : List Data)
  | map (entries : List (Data × Data))
  deriving Repr, Inhabited

namespace Data

mutual

/-- The text of a value inside another; a text is quoted. Values may nest as deep as they like: the
depth at which an interpreter runs out of stack is not part of this. -/
def inner : Data → String
  | null => "None"
  | bool b => if b then "True" else "False"
  | int n => toString n
  | real x => x.text
  | text s => Text.Quoted.quote s
  | moment m => m.inner
  | list items => s!"[{innerItems items}]"
  | map entries => "\x7b" ++ innerEntries entries ++ "\x7d"

def innerItems : List Data → String
  | [] => ""
  | [d] => d.inner
  | d :: rest => s!"{d.inner}, {innerItems rest}"

def innerEntries : List (Data × Data) → String
  | [] => ""
  | [(k, v)] => s!"{k.inner}: {v.inner}"
  | (k, v) :: rest => s!"{k.inner}: {v.inner}, {innerEntries rest}"

end

def render : Data → String
  | text s => s
  | moment m => m.text
  | d => d.inner

mutual

/-- Whether a value can be written: no whole number in it has more decimal digits than allowed. -/
def isWritable : Data → Bool
  | int n => n.natAbs < Nat.pow 10 Text.Integer.decimalLimit
  | list items => areWritable items
  | map entries => entriesAreWritable entries
  | _ => true

def areWritable : List Data → Bool
  | [] => true
  | d :: rest => d.isWritable && areWritable rest

def entriesAreWritable : List (Data × Data) → Bool
  | [] => true
  | (k, v) :: rest => k.isWritable && v.isWritable && entriesAreWritable rest

end

def text? (d : Data) : Option String := if d.isWritable then some d.render else none

def kind : Data → String
  | null => "NoneType"
  | bool _ => "bool"
  | int _ => "int"
  | real _ => "float"
  | text _ => "str"
  | moment m => if m.time?.isSome then "datetime" else "date"
  | list _ => "list"
  | map _ => "dict"

def isTruthy : Data → Bool
  | null => false
  | bool b => b
  | int n => n ≠ 0
  | real x => x.toInt? ≠ some 0
  | text s => !s.isEmpty
  | moment _ => true
  | list items => !items.isEmpty
  | map entries => !entries.isEmpty

def lookup (key : String) : List (Data × Data) → Option Data
  | [] => none
  | (text k, v) :: rest => if k = key then some v else lookup key rest
  | _ :: rest => lookup key rest

def wholeNumber? : Data → Option Int
  | bool b => some (if b then 1 else 0)
  | int n => some n
  | real x => x.toInt?
  | _ => none

/-- Whether two keys are one. Numbers of different kinds are compared by value, and an undefined one
is never the same as anything. -/
def sameKey (a b : Data) : Bool :=
  match a.wholeNumber?, b.wholeNumber? with
  | some m, some n => m == n
  | none, none => match a, b with
    | null, null => true
    | real x, real y => x == y && x != .undefined
    | text s, text t => s == t
    | moment m, moment n => m.same n
    | _, _ => false
  | _, _ => false

/-- An entry added to a mapping; a key that is there already keeps its place and gets the value. -/
def putEntry (entries : List (Data × Data)) (key value : Data) : List (Data × Data) :=
  if entries.any fun e => e.1.sameKey key then
    entries.map fun e => if e.1.sameKey key then (e.1, value) else e
  else entries ++ [(key, value)]

end Data

end Micro6502
