import Micro6502.Moment
import Micro6502.Text.Quoted
import Micro6502.Text.Utf8

namespace Micro6502.Yaml

/-- A place in a text; index, line and column count from zero. -/
structure Mark where
  index : Nat := 0
  line : Nat := 0
  column : Nat := 0
  deriving DecidableEq, Repr, Inhabited

def Mark.text (path : String) (m : Mark) : String :=
  s!"  in \"{path}\", line {m.line + 1}, column {m.column + 1}"

/-- What is wrong at a place. A character that was found is none at the end of the text; a token
or a node that was found is given by its name. -/
inductive Problem where
  | expected (what : String) (found : Option Char)
  | noToken (found : Option Char)
  | noColon
  | entryHere
  | keyHere
  | valueHere
  | zeroIndent
  | unknownEscape (found : Option Char)
  | endOfText
  | documentMarker
  | notText (f : Text.Utf8.Fault)
  | unexpected (what found : String)
  | unseparated (closing found : String)
  | secondVersion
  | otherVersion
  | secondHandle (handle : String)
  | undefinedHandle (handle : String)
  | undefinedAlias (name : String)
  | secondAnchor
  | secondDocument
  | recursive
  | unknownTag (tag : String)
  | otherNode (what found : String)
  | noKey
  | notMerged (what found : String)
  deriving DecidableEq, Repr

inductive Stage where
  | token | grammar | reference | value
  deriving DecidableEq, Repr

namespace Problem

def found (c : Option Char) : String :=
  Text.Quoted.quote (String.singleton (c.getD '\x00'))

def text : Problem → String
  | expected what c => s!"expected {what}, but found {found c}"
  | noToken c => s!"found character {found c} that cannot start any token"
  | noColon => "could not find expected ':'"
  | entryHere => "sequence entries are not allowed here"
  | keyHere => "mapping keys are not allowed here"
  | valueHere => "mapping values are not allowed here"
  | zeroIndent => "expected indentation indicator in the range 1-9, but found 0"
  | unknownEscape c => s!"found unknown escape character {found c}"
  | endOfText => "found unexpected end of stream"
  | documentMarker => "found unexpected document separator"
  | notText f => f.message
  | unexpected what token => s!"expected {what}, but found {Text.Quoted.quote token}"
  | unseparated closing token => s!"expected ',' or '{closing}', but got {Text.Quoted.quote token}"
  | secondVersion => "found duplicate YAML directive"
  | otherVersion => "found incompatible YAML document (version 1.* is required)"
  | secondHandle handle => s!"duplicate tag handle {Text.Quoted.quote handle}"
  | undefinedHandle handle => s!"found undefined tag handle {Text.Quoted.quote handle}"
  | undefinedAlias name => s!"found undefined alias {Text.Quoted.quote name}"
  | secondAnchor => "second occurrence"
  | secondDocument => "but found another document"
  | recursive => "found unconstructable recursive node"
  | unknownTag tag => s!"could not determine a constructor for the tag {Text.Quoted.quote tag}"
  | otherNode what node => s!"expected a {what} node, but found {node}"
  | noKey => "found unhashable key"
  | notMerged what node => s!"expected {what} for merging, but found {node}"

def stage : Problem → Stage
  | unexpected .. | unseparated .. | secondVersion | otherVersion | secondHandle _
  | undefinedHandle _ => .grammar
  | undefinedAlias _ | secondAnchor | secondDocument => .reference
  | recursive | unknownTag _ | otherNode .. | noKey | notMerged .. => .value
  | _ => .token

end Problem

structure Context where
  activity : String
  start? : Option Mark
  deriving DecidableEq, Repr

inductive BadLiteral where
  | empty
  | digits (base : Nat) (cs : List Char)
  | manyDigits (count : Nat)
  | fraction (cs : List Char)
  /-- The weight of a place is beyond all finite numbers. -/
  | weight
  | truth (cs : List Char)
  | moment (e : NoMoment)
  | notMoment
  /-- No character has this number. -/
  | codePoint
  deriving DecidableEq, Repr

def BadLiteral.message : BadLiteral → String
  | empty => "string index out of range"
  | digits base cs =>
    s!"invalid literal for int() with base {base}: " ++ Text.Quoted.quote (String.ofList cs)
  | manyDigits count =>
    s!"Exceeds the limit (4300 digits) for integer string conversion: value has {count} digits; " ++
      "use sys.set_int_max_str_digits() to increase the limit"
  | fraction cs => "could not convert string to float: " ++ Text.Quoted.quote (String.ofList cs)
  | weight => "int too large to convert to float"
  | truth cs => Text.Quoted.quote (String.ofList cs)
  | moment e => e.message
  | notMoment => "'NoneType' object has no attribute 'groupdict'"
  | codePoint => "chr() arg not in range(0x110000)"

inductive Unreadable where
  | control (code position : Nat)
  | fault (context? : Option Context) (problem : Problem) (mark : Mark)
  | literal (l : BadLiteral)
  deriving DecidableEq, Repr

namespace Unreadable

/-- The message on the file of the given path. The place where something began is left out if the
problem shows at the same place. -/
def message (path : String) : Unreadable → String
  | control code position =>
    s!"unacceptable character #x{String.ofList (Text.Hex.padded 4 code)}: " ++
      s!"special characters are not allowed\n  in \"{path}\", position {position}"
  | fault context? problem mark =>
    let context := match context? with
      | none => []
      | some c =>
        let start? := c.start?.filter fun m => m.line ≠ mark.line ∨ m.column ≠ mark.column
        c.activity :: (start?.map (Mark.text path)).toList
    "\n".intercalate (context ++ [problem.text, mark.text path])
  | literal l => l.message

def during (activity : String) (start : Mark) (problem : Problem) (mark : Mark) : Unreadable :=
  .fault (some ⟨activity, some start⟩) problem mark

end Unreadable

abbrev Reader := Except Unreadable

end Micro6502.Yaml
