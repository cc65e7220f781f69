import Micro6502.Config.Error
import Micro6502.Text.Integer

namespace Micro6502.Config

/-- Fails with an error whose message shows the value, if the value can be written. -/
def refuse {α : Type} (shown : Data) (e : ConfigError) : Except ConfigError α :=
  .error (if shown.isWritable then e else .longNumber)

def literal? (s : String) : Option Int :=
  match Text.strip s.toList with
  | '$' :: rest => Text.Integer.parse? 16 rest
  | '0' :: mark :: rest =>
    Text.Integer.parse? (if mark = 'x' ∨ mark = 'X' then 16 else 10) ('0' :: mark :: rest)
  | cs => Text.Integer.parse? 10 cs

def integer : Data → Except ConfigError Int
  | .int n => .ok n
  | .text s => match literal? s with
    | some n => .ok n
    | none => .error (.notInteger (.text s))
  | d => refuse d (.notInteger d)

def integerOr (entries : List (Data × Data)) (key : String) (absent : Int) :
    Except ConfigError Int :=
  match Data.lookup key entries with
  | some d => integer d
  | none => .ok absent

/-- The mapping under a key; what is absent or null is empty. -/
def subsection (entries : List (Data × Data)) (key : String) :
    Except ConfigError (List (Data × Data)) :=
  match Data.lookup key entries with
  | none | some .null => .ok []
  | some (.map inner) => .ok inner
  | some _ => .error (.notSection key)

end Micro6502.Config
