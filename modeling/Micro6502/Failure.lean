import Micro6502.Config.Error
import Micro6502.Fault
import Micro6502.Text.Utf8
import Micro6502.Yaml.Unreadable

namespace Micro6502

inductive Failure where
  | fault (f : Fault)
  | config (e : ConfigError)
  | noFile (path : String)
  | notText (f : Text.Utf8.Fault)
  | notYaml (path : String) (e : Yaml.Unreadable)
  deriving Repr

def Failure.message : Failure → String
  | fault f => f.message
  | config e => e.message
  | noFile path => s!"[Errno 2] No such file or directory: {Text.Quoted.quote path}"
  | notText f => f.message
  | notYaml path e => e.message path

end Micro6502
