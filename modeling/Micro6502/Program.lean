import Micro6502.Memory

namespace Micro6502.Program

/-- Copies a program to `start`, or else to the origin, and tells its length. One that would pass
the end of the address space is refused before anything is written. -/
def load (program : List Byte) (start : Option Int) : MemoryM Nat := do
  let start := start.getD (← get).origin
  if 0x10000 < start + (program.length : Nat) then
    throw (.doesNotFit program.length start)
  Memory.load (byteValues program) (some start)

end Micro6502.Program
