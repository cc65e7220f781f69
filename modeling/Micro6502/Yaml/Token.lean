import Micro6502.Yaml.Unreadable

namespace Micro6502.Yaml

inductive Directive where
  | version (major : Nat)
  | handle (name start : String)
  | other
  deriving DecidableEq, Repr

inductive Lexeme where
  | streamEnd
  | directive (d : Directive)
  | documentStart
  | documentEnd
  | blockSequence
  | blockMapping
  | blockEnd
  | openSequence
  | closeSequence
  | openMapping
  | closeMapping
  | dash
  | comma
  | key
  | value
  | aliasOf (name : String)
  | anchor (name : String)
  | tag (handle? : Option String) (suffix : String)
  | scalar (cs : List Char) (plain : Bool)
  deriving DecidableEq, Repr

def Lexeme.name : Lexeme → String
  | streamEnd => "<stream end>"
  | directive _ => "<directive>"
  | documentStart => "<document start>"
  | documentEnd => "<document end>"
  | blockSequence => "<block sequence start>"
  | blockMapping => "<block mapping start>"
  | blockEnd => "<block end>"
  | openSequence => "["
  | closeSequence => "]"
  | openMapping => "\x7b"
  | closeMapping => "\x7d"
  | dash => "-"
  | comma => ","
  | key => "?"
  | value => ":"
  | aliasOf _ => "<alias>"
  | anchor _ => "<anchor>"
  | tag _ _ => "<tag>"
  | scalar _ _ => "<scalar>"

structure Token where
  lexeme : Lexeme
  start : Mark
  stop : Mark
  deriving DecidableEq, Repr

/-- The tokens of a text in their order, up to its end or up to what is unreadable. -/
structure Tokens where
  list : List Token
  fault? : Option Unreadable
  deriving Repr

end Micro6502.Yaml
