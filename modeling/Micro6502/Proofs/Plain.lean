import Micro6502.Execution
import Micro6502.Proofs.Sound

namespace Micro6502

namespace Machine

variable {m m₁ m₂ : Machine}

/-- Flat memory is all that answers. -/
structure Plain (m : Machine) : Prop where
  flat : m.memory.Flat
  bare : m.io = none

namespace Plain

theorem seen (h : m.Plain) (address : Int) : m.seen address = m.memory.cell address := by
  simp [Machine.seen, h.bare]

theorem asked (h : m.Plain) (address : Int) :
    m.asked address = { m with memory := m.memory.noted address } := by
  simp [Machine.asked, h.bare]

theorem shown (h : m.Plain) (address value : Int) :
    m.shown address value = { m with memory := m.memory.stored address value } := by
  simp [Machine.shown, h.bare]

theorem read (h : m.Plain) (address : Int) :
    read address m = .ok (m.memory.cell address)
      { m with memory := m.memory.noted address } := by
  rw [read_flat h.flat, h.seen, h.asked]

theorem write (h : m.Plain) (address value : Int) :
    write address value m = .ok () { m with memory := m.memory.stored address value } := by
  have hs : m.Sound := ⟨h.flat, fun c hc => by simp [h.bare] at hc⟩
  rw [write_sound hs, h.shown]

end Plain

/-- From `m` to `m'` the machine stays plain, and no byte outside the area changes. -/
structure Within (start : Int) (count : Nat) (m m' : Machine) : Prop where
  plain : m'.Plain
  outside : ∀ address, (∀ i < count, word (start + (i : Nat)) ≠ word address) →
    m'.memory.cell address = m.memory.cell address

namespace Within

variable {start inner : Int} {count : Nat}

theorem refl (h : m.Plain) : Within start count m m := ⟨h, fun _ _ => rfl⟩

theorem trans (h : Within start count m m₁) (h' : Within start count m₁ m₂) :
    Within start count m m₂ :=
  ⟨h'.plain, fun address ha => (h'.outside address ha).trans (h.outside address ha)⟩

/-- What stays within an area stays within a larger one. -/
theorem widen {size : Nat} (h : Within inner size m m₁) (offset : Nat)
    (hinner : inner = start + offset) (hsize : offset + size ≤ count) :
    Within start count m m₁ := by
  refine ⟨h.plain, fun address ha => h.outside address fun i hi => ?_⟩
  have hplace := ha (offset + i) (by omega)
  rwa [hinner, Int.add_assoc, ← Int.natCast_add]

/-- Storing one byte, whatever happens to registers and log besides. -/
theorem stored {memory : Memory} (h : m.Plain) (hflat : memory.Flat)
    (hcell : ∀ address, memory.cell address = m.memory.cell address) (start value : Int)
    (r : Registers) :
    Within start 1 m { m with memory := memory.stored start value, registers := r } := by
  refine ⟨⟨hflat.stored start value, h.bare⟩, fun address ha => ?_⟩
  have hne : word address ≠ word start := by
    have := ha 0 Nat.one_pos
    simpa using this.symm
  exact (Memory.cell_stored hflat start value address).trans ((if_neg hne).trans (hcell address))

end Within

end Machine

namespace Mnemonic

open Machine

def inTurn : List (Mnemonic × Int) → MachineM Unit
  | [] => pure ()
  | (mnemonic, address) :: rest => do
    mnemonic.execute (some address)
    inTurn rest

variable {m m₁ : Machine}

theorem inTurn_cons {mnemonic : Mnemonic} {address : Int} {rest : List (Mnemonic × Int)}
    (h : mnemonic.execute (some address) m = .ok () m₁) :
    inTurn ((mnemonic, address) :: rest) m = inTurn rest m₁ :=
  bind_ok h

theorem inTurn_append {first rest : List (Mnemonic × Int)} (h : inTurn first m = .ok () m₁) :
    inTurn (first ++ rest) m = inTurn rest m₁ := by
  induction first generalizing m with
  | nil =>
    cases h
    rfl
  | cons instruction others ih =>
    obtain ⟨⟨⟩, m₂, hfirst, hothers⟩ := bind_eq_ok.mp h
    exact (inTurn_cons hfirst).trans (ih hothers)

theorem operand_plain (h : m.Plain) (address : Int) :
    operand (some address) m =
      .ok (m.memory.cell address) { m with memory := m.memory.noted address } :=
  h.read address

theorem load_plain (h : m.Plain) (target : Register) (address : Int) :
    load target (some address) m = .ok () { m with
      memory := m.memory.noted address
      registers := m.registers.set target (m.memory.cell address) } := by
  rw [load, bind_ok (operand_plain h address)]
  rfl

theorem store_plain (h : m.Plain) (source : Register) (address : Int) :
    store source (some address) m =
      .ok () { m with memory := m.memory.stored address (m.registers.get source) } :=
  h.write address _

end Mnemonic

end Micro6502
