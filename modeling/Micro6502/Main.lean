import Micro6502.CommandLine.Session

namespace Micro6502.CommandLine

def diskFiles : IO (Files IO) := do
  let directory ← IO.currentDir
  return {
    directory := directory.toString
    bytes? := fun path => do
      try
        return some (← IO.FS.readBinFile path).toList
      catch _ =>
        return none }

def chooseSeed (arguments : List String) : IO Int := do
  match parse arguments with
  | .ok { seed := some seed, .. } => return seed
  | _ => return (← IO.rand 0 0xFFFFFFFF : Nat)

end Micro6502.CommandLine

open Micro6502 in
def main (arguments : List String) : IO UInt32 := do
  let seed ← CommandLine.chooseSeed arguments
  let (ending, out) ←
    CommandLine.invoke (← CommandLine.diskFiles) arguments (Random.ofSeed seed)
  IO.print out
  match ending with
  | .ok (.exit code) =>
    if code = 2 then IO.eprintln CommandLine.usage
    return code.toUInt32
  | .ok .window =>
    IO.eprintln "There is no display; use --headless or --disassemble."
    return 1
  | .error f =>
    IO.eprintln s!"Error: {f.message}"
    return 1
