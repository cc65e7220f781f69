import Micro6502.Proofs.LittleEndian

namespace Micro6502

/-- Two areas are the same, address by address, or have no address in common. -/
def SameOrDisjoint (start other : Int) (count : Nat) : Prop :=
  word start = word other ∨
    ∀ i < count, ∀ j < count, word (start + (i : Nat)) ≠ word (other + (j : Nat))

/-- Going up both areas, no byte is written before it is read. -/
def ReadFirst (source target : Int) (count : Nat) : Prop :=
  ∀ j < count, ∀ i < j, word (target + (i : Nat)) ≠ word (source + (j : Nat))

theorem SameOrDisjoint.readFirst {source target : Int} {count : Nat}
    (h : SameOrDisjoint source target count) (hcount : count ≤ 0x10000) :
    ReadFirst source target count := by
  intro j hj i hi
  rcases h with hsame | hdisjoint
  · unfold word at hsame ⊢
    omega
  · exact (hdisjoint j hj i (by omega)).symm

theorem ReadFirst.tail {source target : Int} {count : Nat}
    (h : ReadFirst source target (count + 1)) : ReadFirst (source + 1) (target + 1) count := by
  intro j hj i hi
  have := h (j + 1) (by omega) (i + 1) (by omega)
  rwa [Int.natCast_succ, Int.natCast_succ, Int.add_comm (i : Int), Int.add_comm (j : Int),
    ← Int.add_assoc, ← Int.add_assoc] at this

namespace Mnemonic

open Machine

/-- Column by column, the operation on the bytes of two areas, the results going to a third. -/
def columns (operation : Mnemonic) (p q r : Int) : Nat → List (Mnemonic × Int)
  | 0 => []
  | count + 1 =>
    (lda, p) :: (operation, q) :: (sta, r) :: columns operation (p + 1) (q + 1) (r + 1) count

def Adds (operation : Mnemonic) (digit : Byte → Nat) : Prop :=
  ∀ (m : Machine) (address : Int), m.Plain → ∃ r : Registers,
    operation.execute (some address) m =
      .ok () { m with memory := m.memory.noted address, registers := r } ∧
    r.a.toNat + 256 * r.carryBit =
      m.registers.a.toNat + digit (m.memory.cell address) + m.registers.carryBit

variable {m : Machine} {operation : Mnemonic} {digit : Byte → Nat} {p q r : Int} {count : Nat}

theorem add_plain (h : m.Plain) (address : Int) :
    adc.execute (some address) m = .ok () { m with
      memory := m.memory.noted address
      registers := (m.registers.setCarry
          (0xFF < (m.registers.a : Int) + m.memory.cell address + m.registers.carryBit)).set .a
        ((m.registers.a : Int) + m.memory.cell address + m.registers.carryBit) } :=
  bind_ok (operand_plain h address)

theorem subtract_plain (h : m.Plain) (address : Int) :
    sbc.execute (some address) m = .ok () { m with
      memory := m.memory.noted address
      registers := (m.registers.setCarry
          (0 ≤ (m.registers.a : Int) - m.memory.cell address - (1 - m.registers.carryBit))).set .a
        ((m.registers.a : Int) - m.memory.cell address - (1 - m.registers.carryBit)) } :=
  bind_ok (operand_plain h address)

/-- A byte and a carry that come from a number below 512 make it up again. -/
theorem sum_of_byte {r : Registers} {total : Int} {c : Bool} {n : Nat}
    (hn : n < 0x200) (htotal : total % 0x100 = n % 0x100) (hc : c = true ↔ 0x100 ≤ n) :
    ((r.setCarry c).set .a total).a.toNat + 256 * ((r.setCarry c).set .a total).carryBit = n := by
  have hbyte := val_byte total
  change (byte total).toNat + 256 * (if c then 1 else 0) = n
  cases c with
  | true =>
    have := hc.mp rfl
    simp only [↓reduceIte]
    omega
  | false =>
    have : ¬ 0x100 ≤ n := fun hle => nomatch hc.mpr hle
    simp only [Bool.false_eq_true, ↓reduceIte]
    omega

theorem adds_adc : adc.Adds UInt8.toNat := by
  intro m address h
  have ha := m.registers.a.toNat_lt
  have hb := (m.memory.cell address).toNat_lt
  have hc := m.registers.carryBit_le
  refine ⟨_, add_plain h address, sum_of_byte (by omega) (by omega) ?_⟩
  rw [decide_eq_true_iff]
  omega

theorem adds_sbc : sbc.Adds (255 - ·.toNat) := by
  intro m address h
  have ha := m.registers.a.toNat_lt
  have hb := (m.memory.cell address).toNat_lt
  have hc := m.registers.carryBit_le
  refine ⟨_, subtract_plain h address, ?_⟩
  dsimp only
  refine sum_of_byte (by omega) (by omega) ?_
  rw [decide_eq_true_iff]
  omega

theorem column_sum (hop : operation.Adds digit) (h : m.Plain) (p q r : Int) :
    ∃ m', inTurn [(lda, p), (operation, q), (sta, r)] m = .ok () m' ∧ Within r 1 m m' ∧
      (m'.memory.cell r).toNat + 256 * m'.registers.carryBit =
        (m.memory.cell p).toNat + digit (m.memory.cell q) + m.registers.carryBit := by
  let m₁ : Machine := { m with
    memory := m.memory.noted p
    registers := m.registers.set .a (m.memory.cell p) }
  have h₁ : m₁.Plain := ⟨h.flat, h.bare⟩
  obtain ⟨s, hact, hsum⟩ := hop m₁ q h₁
  let m₂ : Machine := { m₁ with memory := m₁.memory.noted q, registers := s }
  have h₂ : m₂.Plain := ⟨h.flat, h.bare⟩
  have hcell (address : Int) : m₂.memory.cell address = m.memory.cell address :=
    (Memory.cell_noted _ q address).trans (Memory.cell_noted _ p address)
  have hstored : (m₂.memory.stored r s.a).cell r = s.a := by
    rw [Memory.cell_stored h₂.flat, if_pos rfl, byte_val]
  refine ⟨{ m₂ with memory := m₂.memory.stored r s.a }, ?_, ?_, ?_⟩
  · have hload : lda.execute (some p) m = .ok () m₁ := load_plain h .a p
    have hstore : sta.execute (some r) m₂ = .ok () { m₂ with memory := m₂.memory.stored r s.a } :=
      store_plain h₂ .a r
    rw [inTurn_cons hload, inTurn_cons hact, inTurn_cons hstore]
    rfl
  · exact .stored h h₂.flat hcell r s.a s
  · have hloaded : m₁.registers.a = m.memory.cell p := byte_val _
    rw [hloaded, Memory.cell_noted] at hsum
    rw [hstored]
    exact hsum

/-- The bytes of the results and the carry above them make up the sum. -/
theorem columns_invariant (hop : operation.Adds digit) (h : m.Plain) (hcount : count ≤ 0x10000)
    (hp : ReadFirst p r count) (hq : ReadFirst q r count) :
    ∃ m', inTurn (columns operation p q r count) m = .ok () m' ∧ Within r count m m' ∧
      m'.memory.number r count + 256 ^ count * m'.registers.carryBit =
        m.memory.number p count + m.memory.digits digit q count + m.registers.carryBit := by
  induction count generalizing m p q r with
  | zero =>
    exact ⟨m, rfl, .refl h, by simp [Memory.number]⟩
  | succ count ih =>
    obtain ⟨m₁, hcolumn, h₁, hsum⟩ := column_sum hop h p q r
    obtain ⟨m₂, hrest, h₂, hsums⟩ := ih h₁.plain (by omega) hp.tail hq.tail
    -- The first column writes nothing that the others read, and they do not write where it wrote.
    have hkept (source : Int) (hs : ReadFirst source r (count + 1)) (digit : Byte → Nat) :
        m₁.memory.digits digit (source + 1) count = m.memory.digits digit (source + 1) count := by
      refine h₁.digits_eq (fun j hj i hi => ?_) digit
      have := hs (j + 1) (by omega) i (by omega)
      rwa [Int.natCast_succ, Int.add_comm (j : Int), ← Int.add_assoc] at this
    have hlowest : m₂.memory.cell r = m₁.memory.cell r := by
      refine h₂.outside r fun i hi => ?_
      unfold word
      omega
    refine ⟨m₂, (inTurn_append hcolumn).trans hrest, ?_, ?_⟩
    · have hfirst : Within r (count + 1) m m₁ := h₁.widen 0 (by simp) (by omega)
      exact hfirst.trans (h₂.widen 1 rfl (by omega))
    · unfold Memory.number at hsums ⊢
      rw [hkept p hp, hkept q hq] at hsums
      have hcarry : 256 ^ (count + 1) * m₂.registers.carryBit =
          256 * (256 ^ count * m₂.registers.carryBit) := by
        rw [Nat.pow_succ, Nat.mul_comm (256 ^ count), Nat.mul_assoc]
      rw [Memory.digits_succ, Memory.digits_succ, Memory.digits_succ, hlowest, hcarry]
      omega

/-- Sums and differences of any length. The carry tells of a sum that needs one more byte, and of a
difference that is not below zero. -/
theorem columns_value (h : m.Plain) (hcount : count ≤ 0x10000) (hp : SameOrDisjoint p r count)
    (hq : SameOrDisjoint q r count) :
    let a := m.memory.number p count
    let b := m.memory.number q count
    let c := m.registers.carryBit
    (∃ m', inTurn (columns adc p q r count) m = .ok () m' ∧
      m'.memory.number r count = (a + b + c) % 256 ^ count ∧
      (m'.registers.carry = true ↔ 256 ^ count ≤ a + b + c) ∧ Within r count m m') ∧
    ∃ m', inTurn (columns sbc p q r count) m = .ok () m' ∧
      (m'.memory.number r count : Int) = (a - b - (1 - c) : Int) % 256 ^ count ∧
      (m'.registers.carry = true ↔ 0 ≤ (a - b - (1 - c) : Int)) ∧ Within r count m m' := by
  intro a b c
  have hp' := hp.readFirst hcount
  have hq' := hq.readFirst hcount
  constructor
  · obtain ⟨m', hrun, hwithin, hsum⟩ := columns_invariant adds_adc h hcount hp' hq'
    have hvalue := Registers.carried (m'.memory.number_lt r count) hsum
    exact ⟨m', hrun, hvalue.1, hvalue.2, hwithin⟩
  · obtain ⟨m', hrun, hwithin, hsum⟩ := columns_invariant adds_sbc h hcount hp' hq'
    have hcomplement := m.memory.digits_complement q count
    have hdifference : (a - b - (1 - c) : Int) =
        m'.memory.number r count + (256 ^ count : Nat) * (m'.registers.carryBit - 1 : Int) := by
      rw [Int.mul_sub, Int.mul_one, ← Int.natCast_mul]
      omega
    have hvalue := Registers.borrowed (m'.memory.number_lt r count) hdifference
    exact ⟨m', hrun, mod_cast hvalue.1, hvalue.2, hwithin⟩

/-- Two bytes around the end of memory, where the results take the place of the first number. -/
theorem columns_value_in_place :
    let memory : Memory := ((({} : Memory).stored 0xFFFF 0xFF).stored 0 0x01).stored 0x10 0x01
    let m : Machine := { memory, registers := { carry := true } }
    m.Plain ∧ SameOrDisjoint 0xFFFF 0xFFFF 2 ∧ SameOrDisjoint 0x10 0xFFFF 2 ∧
      (∃ m', inTurn (columns adc 0xFFFF 0x10 0xFFFF 2) m = .ok () m' ∧
        m'.memory.number 0xFFFF 2 = 0x0201 ∧ m'.registers.carry = false) ∧
      ∃ m', inTurn (columns sbc 0xFFFF 0x10 0xFFFF 2) m = .ok () m' ∧
        m'.memory.number 0xFFFF 2 = 0x01FE ∧ m'.registers.carry = true := by
  intro memory m
  have hblank : Memory.Flat {} := Bus.flat_blank
  have hplain : m.Plain := ⟨((hblank.stored _ _).stored _ _).stored _ _, rfl⟩
  have hcell (a : Int) : m.memory.cell a =
      if word a = word 0x10 then byte 0x01 else if word a = word 0 then byte 0x01 else
        if word a = word 0xFFFF then byte 0xFF else Memory.cell {} a := by
    have hlast := Memory.cell_stored ((hblank.stored 0xFFFF 0xFF).stored 0 0x01) 0x10 0x01 a
    rw [Memory.cell_stored (hblank.stored 0xFFFF 0xFF), Memory.cell_stored hblank] at hlast
    exact hlast
  have hblank_cell (a : Int) : Memory.cell {} a = 0 := Bus.cell_blank a
  have ha : m.memory.number 0xFFFF 2 = 0x01FF := by
    simp [Memory.number, Memory.digits_succ, hcell, word]
    rfl
  have hb : m.memory.number 0x10 2 = 1 := by
    simp [Memory.number, Memory.digits_succ, hcell, hblank_cell, word]
    rfl
  have hsame : SameOrDisjoint 0xFFFF 0xFFFF 2 := .inl rfl
  have hdisjoint : SameOrDisjoint 0x10 0xFFFF 2 := by
    refine .inr fun i hi j hj => ?_
    unfold word
    omega
  have hvalue := columns_value hplain (by decide) hsame hdisjoint
  rw [ha, hb] at hvalue
  obtain ⟨⟨m₁, hrun₁, hsum, hcarry₁, -⟩, m₂, hrun₂, hdifference, hcarry₂, -⟩ := hvalue
  refine ⟨hplain, hsame, hdisjoint, ⟨m₁, hrun₁, hsum, ?_⟩, m₂, hrun₂, ?_, hcarry₂.mpr ?_⟩
  · have hnot : ¬ m₁.registers.carry = true := fun h => absurd (hcarry₁.mp h) (by decide)
    simpa using hnot
  · exact Int.ofNat.inj hdifference
  · decide

end Mnemonic

end Micro6502
