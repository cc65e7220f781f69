import Micro6502.Fault

namespace Micro6502

structure Ram where
  bytes : Array Byte
  deriving DecidableEq, Repr

namespace Ram

def size (r : Ram) : Nat := r.bytes.size

def zeros (n : Nat) : Ram := ⟨Array.replicate n 0⟩

def ofSize (n : Int) : Except Fault Ram :=
  if n ≤ 0 then .error .ramSize else .ok (zeros n.toNat)

def read (offset : Int) : EStateM Fault Ram Byte := fun r =>
  if h : 0 ≤ offset ∧ offset.toNat < r.bytes.size then .ok r.bytes[offset.toNat] r
  else .error (.outOfRam offset r.size) r

/-- Stores a value from 0 to 255; nothing is cut here. -/
def write (offset data : Int) : EStateM Fault Ram Unit := fun r =>
  if h : 0 ≤ offset ∧ offset.toNat < r.bytes.size then
    if 0 ≤ data ∧ data ≤ 0xFF then .ok () ⟨r.bytes.set offset.toNat (byte data)⟩
    else .error (.notByte data) r
  else .error (.outOfRam offset r.size) r

end Ram

end Micro6502
