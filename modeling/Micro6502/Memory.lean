import Micro6502.Bus

namespace Micro6502

/-- Counter and pointer may be set to any integer; they are cut to their width where they are used.
Programs are loaded at the origin and start there. -/
structure Memory where
  bus : Bus := Bus.flat
  origin : Int := 0x0600
  pc : Int := origin
  sp : Int := 0xFF
  deriving DecidableEq, Repr

abbrev MemoryM := EStateM Fault Memory

def stackBase : Int := 0x0100

def stackTop : Int := 0xFF

namespace Memory

def onBus {α : Type} (act : EStateM Fault Bus α) : MemoryM α := fun ⟨bus, origin, pc, sp⟩ =>
  match act bus with
  | .ok a bus => .ok a ⟨bus, origin, pc, sp⟩
  | .error e bus => .error e ⟨bus, origin, pc, sp⟩

def setPc (n : Int) : MemoryM Unit := modify fun m => { m with pc := n }

def setSp (n : Int) : MemoryM Unit := modify fun m => { m with sp := n }

def read (address : Int) : MemoryM Byte := do
  return byte (← onBus (Bus.read address))

def write (address value : Int) : MemoryM Unit :=
  onBus (Bus.write address (byte value))

def peek (address : Int) : MemoryM Byte := do
  return byte (← onBus (Bus.peek address))

def peekMany (start : Int) : Nat → MemoryM (List Byte)
  | 0 => return []
  | count + 1 => do
    let b ← peek start
    return b :: (← peekMany (start + 1) count)

/-- Stores the values one after the other, wrapping at the end of the address space. -/
def loadFrom : Int → List Int → MemoryM Unit
  | _, [] => pure ()
  | address, value :: rest => do
    write address value
    loadFrom (address + 1) rest

/-- Stores the values from `start` or else from the origin, and tells how many there were. -/
def load (values : List Int) (start : Option Int) : MemoryM Nat := do
  loadFrom (start.getD (← get).origin) values
  return values.length

def fetch : MemoryM Byte := do
  let b ← read (← get).pc
  modify fun m => { m with pc := word (m.pc + 1) }
  return b

def jump (address : Int) : MemoryM Unit := setPc (word address)

def push (value : Int) : MemoryM Unit := do
  write (stackBase + (← get).sp) value
  modify fun m => { m with sp := (m.sp - 1) % 0x100 }

def pull : MemoryM Byte := do
  modify fun m => { m with sp := (m.sp + 1) % 0x100 }
  read (stackBase + (← get).sp)

/-- Pushes the program counter, its low byte first. -/
def pushPc : MemoryM Unit := do
  let (lo, hi) := wordBytes (← get).pc
  push lo
  push hi

def ret : MemoryM Unit := do
  let hi ← pull
  let lo ← pull
  jump (wordOf lo hi)

def takeLog : MemoryM (List Access) := onBus Bus.takeLog

end Memory

end Micro6502
