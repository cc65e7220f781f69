import Micro6502.Config.System
import Micro6502.Machine

namespace Micro6502

namespace InitialState

/-- Writes a register that the machine has; other names are passed over. -/
def setNamed (r : Registers) (entry : String × Int) : Registers :=
  match Register.ofName? entry.1 with
  | some target => r.set target entry.2
  | none => r

def apply (i : InitialState) (m : Machine) : Machine :=
  { m with
    memory := { m.memory with pc := word i.pc, sp := i.sp % 0x100 }
    registers := i.registers.foldl setNamed {}
    status := .running
    steps := 0 }

def warnings (i : InitialState) : List String :=
  (i.registers.filter fun (name, _) => (Register.ofName? name).isNone).map fun (name, _) =>
    s!"Warning: Ignoring initial value for unknown register '{name}'"

end InitialState

namespace SystemConfig

def screen (c : SystemConfig) : Screen := Screen.blank c.io.screenWidth c.io.screenHeight

def build (c : SystemConfig) (console : Console) (random : Random) (table : OpcodeTable) :
    Machine :=
  c.initial.apply
    { memory := { origin := c.origin }
      io := some { config := c.io, console, random }
      table }

end SystemConfig

end Micro6502
