import Micro6502.Config.Field
import Micro6502.OpcodeTable
import Micro6502.Text.Case

namespace Micro6502.OpcodeTable

/-- The name under a key in upper case, if it can be written; an absent one is empty. -/
def nameUnder (key : String) (entries : List (Data × Data)) : Option String :=
  ((Data.lookup key entries).getD (.text "")).text?.map Text.upper

def parseInstruction (opcode : Byte) (entries : List (Data × Data)) :
    Except ConfigError Instruction :=
  match (nameUnder "mnemonic" entries).bind Mnemonic.ofName? with
  | none =>
    let name := (Data.lookup "mnemonic" entries).getD .null
    Config.refuse name (.unknownMnemonic opcode name)
  | some mnemonic =>
    match (nameUnder "mode" entries).bind Mode.ofName? with
    | none =>
      let name := (Data.lookup "mode" entries).getD .null
      Config.refuse name (.unknownMode opcode name)
    | some mode => .ok ⟨mnemonic, mode⟩

def parseEntry (t : OpcodeTable) (key value : Data) : Except ConfigError OpcodeTable := do
  let n ← Config.integer key
  if n < 0 ∨ 0xFF < n then Config.refuse key (.wideOpcode key)
  let opcode := byte n
  if (t.get? opcode).isSome then throw (.duplicateOpcode opcode)
  match value with
  | .map entries => return t.insert opcode (← parseInstruction opcode entries)
  | _ => throw (.notEntry opcode)

/-- Reads the entries in their order; the first faulty one is reported. -/
def parse (entries : List (Data × Data)) : Except ConfigError OpcodeTable := do
  (← Config.subsection entries "opcodes").foldlM (fun t (key, value) => parseEntry t key value)
    empty

end Micro6502.OpcodeTable
