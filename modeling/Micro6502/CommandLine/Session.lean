import Micro6502.CommandLine.Options
import Micro6502.Files
import Micro6502.Listing
import Micro6502.Step
import Micro6502.System

namespace Micro6502.CommandLine

/-- A run that prints and may fail; what was printed before a failure is kept. -/
abbrev Printing (m : Type → Type) := ExceptT Failure (StateT String m)

inductive Ending where
  | exit (code : Nat)
  /-- The program is to go on in a window. -/
  | window
  deriving DecidableEq, Repr

def usage : String :=
  "usage: snake6502 [-h] [--config CONFIG] [--hex] [--headless] [--max-steps MAX_STEPS] " ++
    "[--disassemble N] [--seed SEED] program"

def hexSuffixes : List String := [".hex", ".txt"]

section

variable {m : Type → Type} [Monad m]

def print (line : String) : Printing m Unit :=
  modify fun out => out ++ line ++ "\n"

def quietly {α : Type} (act : ExceptT Failure m α) : Printing m α :=
  ExceptT.mk (monadLift act.run : StateT String m (Except Failure α))

def readProgram (files : Files m) (path : String) (asHex : Bool) :
    ExceptT Failure m (List Byte) := do
  let tidied := Text.Path.tidy path
  if asHex || hexSuffixes.contains (Text.lower (Text.Path.suffix path)) then
    match HexDump.parse (← files.text tidied) with
    | .ok bytes => return bytes
    | .error f => throw (.fault f)
  else files.bytes tidied

def listingLine (l : Line) : String :=
  let gap := "".pushn ' ' (9 - l.hex.length)
  s!"{Text.Hex.upper 4 l.address}  {l.hex}{gap} {l.text}"

def printSummary (mc : Machine) : Printing m Unit := do
  let state := if mc.isHalted then "HALTED" else "STOPPED"
  let r := mc.registers
  print <| s!"{state} after {mc.steps} steps at PC=${Text.Hex.upper 4 mc.memory.pc} " ++
    s!"A=${Text.Hex.upper 2 r.a} X=${Text.Hex.upper 2 r.x} Y=${Text.Hex.upper 2 r.y}"
  print ((mc.screen?.map Screen.render).getD "")

def printListing (mc : Machine) (origin count : Int) : Printing m Unit := do
  match Listing.lines mc.table origin count.toNat mc.memory with
  | .ok ls _ => for l in ls do print (listingLine l)
  | .error f _ => throw (.fault f)

/-- The steps that a bound allows, none if it is negative. Nobody waits for the end of a run that
takes more of them than are allowed without one. -/
def stepsWithin (bound : Option Int) : Nat := (bound.map Int.toNat).getD (Nat.pow 2 62)

def runHeadless (mc : Machine) (maxSteps : Option Int) : Printing m Ending := do
  match Machine.run (stepsWithin maxSteps) mc with
  | .ok _ mc =>
    printSummary mc
    return .exit 0
  | .error (.unknownOpcode opcode address) mc =>
    print s!"Error: {(Fault.unknownOpcode opcode address).message}"
    printSummary mc
    return .exit 1
  | .error f _ => throw (.fault f)

def session (files : Files m) (o : Options) (random : Random) : Printing m Ending := do
  let config ← match o.config with
    | none | some "" => pure {}
    | some path => quietly (files.config path)
  let table ← quietly (files.tableOf config)
  let mc := config.build (.screen config.screen) random table
  config.initial.warnings.forM print
  let program ← quietly (readProgram files (o.program.getD "") o.hex)
  match Machine.onMemory (Program.load program (some config.origin)) mc with
  | .error f _ => throw (.fault f)
  | .ok loaded mc =>
    print s!"Loaded {loaded} bytes at ${Text.Hex.upper 4 config.origin}"
    match o.disassemble with
    | some count =>
      printListing mc config.origin count
      return .exit 0
    | none => if o.headless then runHeadless mc o.maxSteps else return .window

/-- The whole run of a command line: how it ends and what it prints. -/
def invoke (files : Files m) (arguments : List String) (random : Random) :
    m (Except Failure Ending × String) :=
  match parse arguments with
  | .error .usage => pure (.ok (.exit 2), "")
  | .error .help => pure (.ok (.exit 0), usage ++ "\n")
  | .ok o => (session files o random).run.run ""

end

end Micro6502.CommandLine
