import Micro6502.Program
import Micro6502.Text.Blank

namespace Micro6502.HexDump

def code (line : List Char) : List Char := line.takeWhile (· ≠ ';')

def isLabel (word : List Char) : Bool := word.getLast? == some ':'

def wordBytes (n : Nat) : List (List Char) → Except Fault (List Byte)
  | [] => .ok []
  | word :: rest =>
    if isLabel word then wordBytes n rest
    else match Text.Hex.pair? word with
      | some b => do return b :: (← wordBytes n rest)
      | none => .error (.notHexPair (String.ofList word) n)

def lineBytes (n : Nat) : List (List Char) → Except Fault (List Byte)
  | [] => .ok []
  | line :: rest => do
    let bytes ← wordBytes n (Text.words (code line))
    return bytes ++ (← lineBytes (n + 1) rest)

def parse (text : List Char) : Except Fault (List Byte) :=
  lineBytes 1 (Text.lines text)

/-- Loads the bytes of a hex dump; a faulty dump leaves the memory alone. -/
def load (text : List Char) (start : Option Int) : MemoryM Nat :=
  match parse text with
  | .ok bytes => Program.load bytes start
  | .error e => throw e

end Micro6502.HexDump
