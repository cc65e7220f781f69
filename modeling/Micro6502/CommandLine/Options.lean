import Micro6502.Text.Integer

namespace Micro6502.CommandLine

inductive Flag where
  | config | hex | headless | maxSteps | disassemble | seed | help
  deriving DecidableEq, Repr

namespace Flag

def spellings : List (String × Flag) :=
  [("-h", help), ("--help", help), ("--config", config), ("--hex", hex), ("--headless", headless),
    ("--max-steps", maxSteps), ("--disassemble", disassemble), ("--seed", seed)]

def takesValue : Flag → Bool
  | config | maxSteps | disassemble | seed => true
  | _ => false

end Flag

structure Options where
  program : Option String := none
  config : Option String := none
  hex : Bool := false
  headless : Bool := false
  maxSteps : Option Int := none
  disassemble : Option Int := none
  seed : Option Int := none
  deriving DecidableEq, Repr

inductive Stop where
  | usage
  | help
  deriving DecidableEq, Repr

/-- One word of the command line. The value behind an equals sign belongs to its option; letters
that follow a one-letter option directly are `joined`. -/
inductive Token where
  | word (s : String)
  | option (flag : Flag) (value : Option String) (joined : Bool)
  | unknown (s : String)
  | dashes
  deriving DecidableEq, Repr

def splitValue (s : String) : String × Option String :=
  let cs := s.toList
  match cs.dropWhile (· ≠ '=') with
  | [] => (s, none)
  | _ :: value => (String.ofList (cs.takeWhile (· ≠ '=')), some (String.ofList value))

/-- A negative number is a word, not an option. -/
def isNegativeNumber (s : String) : Bool :=
  let isDigit (c : Char) : Bool := (Text.Integer.digit? 10 c).isSome
  match s.toList with
  | '-' :: rest =>
    match rest.dropWhile isDigit with
    | [] => !rest.isEmpty
    | '.' :: fraction => !fraction.isEmpty && fraction.all isDigit
    | _ => false
  | _ => false

def candidates (s : String) : List Token :=
  if s.startsWith "--" then
    let (name, value) := splitValue s
    Flag.spellings.filterMap fun (spelling, flag) =>
      if spelling.startsWith name then some (.option flag value false) else none
  else
    let letter := String.ofList (s.toList.take 2)
    let rest := String.ofList (s.toList.drop 2)
    Flag.spellings.filterMap fun (spelling, flag) =>
      if spelling == letter then some (.option flag (some rest) true)
      else if spelling.startsWith s then some (.option flag none false)
      else none

def spelled? (s : String) : Option Flag := Flag.spellings.lookup s

def classify (s : String) : Except Stop Token :=
  if !s.startsWith "-" then .ok (.word s)
  else if let some flag := spelled? s then .ok (.option flag none false)
  else if s == "-" then .ok (.word s)
  else
    let (name, value) := splitValue s
    match value, spelled? name with
    | some value, some flag => .ok (.option flag (some value) false)
    | _, _ =>
      match candidates s with
      | [token] => .ok token
      | _ :: _ :: _ => .error .usage
      | [] =>
        if isNegativeNumber s ∨ s.toList.contains ' ' then .ok (.word s) else .ok (.unknown s)

def tokens : List String → Except Stop (List Token)
  | [] => .ok []
  | "--" :: rest => .ok (.dashes :: rest.map .word)
  | s :: rest => do return (← classify s) :: (← tokens rest)

def number (s : String) : Except Stop (Option Int) :=
  match Text.Integer.parse? 10 s.toList with
  | some n => .ok (some n)
  | none => .error .usage

def Options.set (o : Options) (flag : Flag) (value : String) : Except Stop Options :=
  match flag with
  | .config => .ok { o with config := some value }
  | .maxSteps => do return { o with maxSteps := ← number value }
  | .disassemble => do return { o with disassemble := ← number value }
  | .seed => do return { o with seed := ← number value }
  | .hex => .ok { o with hex := true }
  | .headless => .ok { o with headless := true }
  | .help => .error .help

/-- Whether letters joined to `-h` leave it a request for help: they are read up to the first one
that is no option, and neither a dash nor an equals sign may come before. -/
def joinsHelp : List Char → Bool
  | '-' :: _ => false
  | 'h' :: '=' :: _ => false
  | 'h' :: rest => joinsHelp rest
  | _ => true

/-- Takes the tokens in their order; `spare` tells that some word had no place. -/
def take (o : Options) (spare : Bool) : List Token → Except Stop Options
  | [] => if spare ∨ o.program.isNone then .error .usage else .ok o
  | .word s :: rest =>
    if o.program.isSome then take o true rest
    else match rest with
      | .dashes :: rest => take { o with program := some s } spare rest
      | rest => take { o with program := some s } spare rest
  | .dashes :: .word s :: rest =>
    if o.program.isSome then .error .usage else take { o with program := some s } spare rest
  | .dashes :: _ => .error .usage
  | .unknown _ :: rest => take o true rest
  | .option flag value joined :: rest =>
    match flag.takesValue, value with
    | true, some value => do take (← o.set flag value) spare rest
    | true, none =>
      match rest with
      | .word value :: rest => do take (← o.set flag value) spare rest
      | _ => .error .usage
    | false, none => do take (← o.set flag "") spare rest
    | false, some letters =>
      -- Only a row of the one-letter option itself can be joined.
      if joined ∧ joinsHelp letters.toList then do take (← o.set flag "") spare rest
      else .error .usage

def parse (arguments : List String) : Except Stop Options := do
  take {} false (← tokens arguments)

end Micro6502.CommandLine
