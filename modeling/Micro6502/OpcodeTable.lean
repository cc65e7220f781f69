import Micro6502.Mnemonic
import Micro6502.Mode
import Micro6502.Word

namespace Micro6502

structure Instruction where
  mnemonic : Mnemonic
  mode : Mode
  deriving DecidableEq, Repr

/-- One slot for each byte; an empty one belongs to a byte that is no opcode. -/
structure OpcodeTable where
  slots : Vector (Option Instruction) 256
  deriving DecidableEq, Repr

namespace OpcodeTable

def empty : OpcodeTable := ⟨Vector.replicate 256 none⟩

def get? (t : OpcodeTable) (opcode : Byte) : Option Instruction :=
  have : opcode.toNat < 256 := opcode.toNat_lt
  t.slots[opcode.toNat]

def insert (t : OpcodeTable) (opcode : Byte) (i : Instruction) : OpcodeTable :=
  ⟨t.slots.set opcode.toNat (some i) opcode.toNat_lt⟩

def ofList (entries : List (Byte × Instruction)) : OpcodeTable :=
  entries.foldl (fun t (opcode, i) => t.insert opcode i) empty

@[simp] theorem get?_empty (opcode : Byte) : empty.get? opcode = none := by
  simp [empty, get?]

theorem get?_insert (t : OpcodeTable) (opcode other : Byte) (i : Instruction) :
    (t.insert opcode i).get? other = if other = opcode then some i else t.get? other := by
  simp [insert, get?, Vector.getElem_set, UInt8.toNat_inj, eq_comm]

/-- A table is what it says of each byte. -/
@[ext] theorem ext {t u : OpcodeTable} (h : ∀ opcode, t.get? opcode = u.get? opcode) : t = u := by
  obtain ⟨t⟩ := t
  obtain ⟨u⟩ := u
  congr 1
  apply Vector.ext
  intro i hi
  simpa [get?, Nat.mod_eq_of_lt hi] using h (UInt8.ofNat i)

def toList (t : OpcodeTable) : List (Byte × Instruction) :=
  (List.range 256).filterMap fun n => (t.get? (UInt8.ofNat n)).map fun i => (UInt8.ofNat n, i)

end OpcodeTable

end Micro6502
