import Micro6502.Yaml.Tag
import Micro6502.Yaml.Unreadable

namespace Micro6502.Yaml

/-- An alias stands for the node that it names. Inside that node itself it is `enclosing`. -/
inductive Node where
  | scalar (tag : Tag) (cs : List Char) (mark : Mark)
  | sequence (tag : Tag) (items : List Node) (mark : Mark)
  | mapping (tag : Tag) (entries : List (Node × Node)) (mark : Mark)
  | enclosing (mark : Mark)
  deriving Repr, Inhabited

namespace Node

def mark : Node → Mark
  | scalar _ _ m | sequence _ _ m | mapping _ _ m | enclosing m => m

def shape : Node → String
  | scalar .. => "scalar"
  | sequence .. | enclosing _ => "sequence"
  | mapping .. => "mapping"

def absent (m : Mark) : Node := scalar .null [] m

end Node

end Micro6502.Yaml
