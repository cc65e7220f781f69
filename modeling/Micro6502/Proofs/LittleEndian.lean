import Mathlib.Data.Nat.Digits.Defs
import Micro6502.Proofs.Plain

namespace Micro6502

namespace Registers

theorem carryBit_le (r : Registers) : r.carryBit ≤ 1 := by
  unfold carryBit
  split <;> omega

theorem carry_eq (r : Registers) : r.carry = decide (r.carryBit = 1) := by
  unfold carryBit
  cases r.carry <;> rfl

/-- A value that does not fit its bound leaves its remainder and the carry. -/
theorem carried {r : Registers} {x bound value : Nat} (hx : x < bound)
    (h : x + bound * r.carryBit = value) : x = value % bound ∧ (r.carry = true ↔ bound ≤ value) := by
  subst h
  refine ⟨?_, ?_⟩
  · rw [Nat.add_mul_mod_self_left, Nat.mod_eq_of_lt hx]
  · unfold carryBit
    cases r.carry with
    | true => simp
    | false => simpa using hx

/-- A difference that is below zero leaves its remainder and no carry. -/
theorem borrowed {r : Registers} {x bound : Nat} {value : Int} (hx : x < bound)
    (h : value = x + bound * (r.carryBit - 1 : Int)) :
    (x : Int) = value % bound ∧ (r.carry = true ↔ 0 ≤ value) := by
  subst h
  refine ⟨?_, ?_⟩
  · rw [Int.add_mul_emod_self_left, Int.emod_eq_of_lt (by omega) (by omega)]
  · unfold carryBit
    cases r.carry with
    | true => simp
    | false =>
      simp only [Bool.false_eq_true, ↓reduceIte, false_iff, Int.not_le]
      omega

end Registers

namespace Memory

/-- The number whose digits, by 256 and from the lowest, `digit` gives for the bytes of an area. -/
def digits (m : Memory) (digit : Byte → Nat) (start : Int) (count : Nat) : Nat :=
  Nat.ofDigits 256 ((m.cells start count).map digit)

def number (m : Memory) (start : Int) (count : Nat) : Nat := m.digits UInt8.toNat start count

variable {m m' : Memory} {digit : Byte → Nat} {start : Int} {count : Nat}

@[simp] theorem digits_zero : m.digits digit start 0 = 0 := rfl

theorem digits_succ :
    m.digits digit start (count + 1) =
      digit (m.cell start) + 256 * m.digits digit (start + 1) count := by
  simp [digits, cells, Nat.ofDigits_cons]

/-- The highest digit apart. -/
theorem digits_top :
    m.digits digit start (count + 1) =
      m.digits digit start count + 256 ^ count * digit (m.cell (start + count)) := by
  rw [digits, digits, cells_add, List.map_append, Nat.ofDigits_append]
  simp [cells]

theorem digits_lt (h : ∀ b, digit b < 256) : m.digits digit start count < 256 ^ count := by
  have hlt : ∀ d ∈ (m.cells start count).map digit, d < 256 := by
    intro d hd
    obtain ⟨b, -, rfl⟩ := List.mem_map.mp hd
    exact h b
  simpa [digits] using Nat.ofDigits_lt_base_pow_length (by decide) hlt

theorem digits_congr (h : ∀ i < count, m'.cell (start + (i : Nat)) = m.cell (start + (i : Nat))) :
    m'.digits digit start count = m.digits digit start count := by
  induction count with
  | zero => rfl
  | succ count ih =>
    rw [digits_top, digits_top, ih fun i hi => h i (by omega), h count (by omega)]

theorem number_lt (m : Memory) (start : Int) (count : Nat) :
    m.number start count < 256 ^ count :=
  digits_lt UInt8.toNat_lt

/-- A number and the one of the complemented bytes make up the highest number. -/
theorem digits_complement (m : Memory) (start : Int) (count : Nat) :
    m.digits (255 - ·.toNat) start count + m.number start count + 1 = 256 ^ count := by
  induction count generalizing start with
  | zero => rfl
  | succ count ih =>
    have hrest := ih (start + 1)
    have hbyte := (m.cell start).toNat_lt
    unfold number at hrest ⊢
    rw [digits_succ, digits_succ, Nat.pow_succ]
    omega

end Memory

/-- The digits of bytes outside an area stay when only the area changes. -/
theorem Machine.Within.digits_eq {m m' : Machine} {start other : Int} {size count : Nat}
    (h : Within start size m m')
    (hother : ∀ j < count, ∀ i < size, word (start + (i : Nat)) ≠ word (other + (j : Nat)))
    (digit : Byte → Nat) :
    m'.memory.digits digit other count = m.memory.digits digit other count :=
  Memory.digits_congr fun j hj => h.outside _ (hother j hj)

end Micro6502
