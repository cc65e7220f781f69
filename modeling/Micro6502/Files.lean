import Micro6502.Config.System
import Micro6502.Config.Table
import Micro6502.Failure
import Micro6502.HexDump
import Micro6502.OpcodeTable.Standard
import Micro6502.Yaml.Value

namespace Micro6502

/-- How the bytes of a file are had in `m`. -/
structure Files (m : Type → Type) where
  bytes? : String → m (Option (List Byte))
  /-- The directory from which relative paths are seen. -/
  directory : String

namespace Files

variable {m : Type → Type} [Monad m]

def bytes (files : Files m) (path : String) : ExceptT Failure m (List Byte) := do
  match ← files.bytes? path with
  | some bytes => return bytes
  | none => throw (.noFile path)

/-- Bytes as characters, with line feeds as their only line ends. -/
def characters (decoded : Except Text.Utf8.Fault (List Char)) : ExceptT Failure m (List Char) :=
  match decoded with
  | .ok cs => return Text.unifyNewlines cs
  | .error f => throw (.notText f)

def text (files : Files m) (path : String) : ExceptT Failure m (List Char) := do
  characters (Text.Utf8.decode (← files.bytes path))

/-- The entries of a document that is a mapping; an empty document has none. -/
def entries (files : Files m) (path : String) : ExceptT Failure m (List (Data × Data)) := do
  match Yaml.parse (← characters (Text.Utf8.decodeStream (← files.bytes path))) with
  | .error e => throw (.notYaml path e)
  | .ok .null => return []
  | .ok (.map entries) => return entries
  | .ok _ => throw (.config (.notDocument path))

def table (files : Files m) (path : String) : ExceptT Failure m OpcodeTable := do
  match OpcodeTable.parse (← files.entries path) with
  | .ok t => return t
  | .error e => throw (.config e)

/-- The table that a configuration asks for: the one in the file it names, else the standard one. -/
def tableOf (files : Files m) (config : SystemConfig) : ExceptT Failure m OpcodeTable :=
  if config.opcodeTable.isTruthy then
    match config.opcodeTable with
    | .text path => files.table path
    | d => throw (.config (.notPath d))
  else return .standard

def config (files : Files m) (path : String) : ExceptT Failure m SystemConfig := do
  let base := Text.Path.parent (Text.Path.normalize (Text.Path.join files.directory path))
  match SystemConfig.parse (← files.entries path) (some base) with
  | .ok c => return c
  | .error e => throw (.config e)

end Files

end Micro6502
