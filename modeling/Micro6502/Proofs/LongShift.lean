import Micro6502.Proofs.LittleEndian

namespace Micro6502

namespace Machine

structure Shifts (start : Int) (count : Nat) (m m' : Machine) : Prop
    extends Within start count m m' where
  registers : ∀ r, m'.registers.get r = m.registers.get r

def withoutCarry (m : Machine) : Machine := { m with registers := m.registers.setCarry false }

def moved (m : Machine) (address : Int) (s : Mnemonic.Shift) : Machine := { m with
  memory := (m.memory.noted address).stored address (byte s.result)
  registers := (m.registers.setCarry s.out).normalize s.result }

variable {m m₁ m₂ : Machine} {start inner : Int} {count : Nat}

theorem Shifts.trans (h : Shifts start count m m₁) (h' : Shifts start count m₁ m₂) :
    Shifts start count m m₂ :=
  ⟨h.toWithin.trans h'.toWithin, fun r => (h'.registers r).trans (h.registers r)⟩

theorem Shifts.widen {size : Nat} (h : Shifts inner size m m₁) (offset : Nat)
    (hinner : inner = start + offset) (hsize : offset + size ≤ count) :
    Shifts start count m m₁ :=
  ⟨h.toWithin.widen offset hinner hsize, h.registers⟩

theorem Plain.withoutCarry (h : m.Plain) : m.withoutCarry.Plain := ⟨h.flat, h.bare⟩

theorem Shifts.of_withoutCarry (h : Shifts start count m.withoutCarry m₁) :
    Shifts start count m m₁ :=
  ⟨⟨h.plain, h.outside⟩, fun r => (h.registers r).trans (by cases r <;> rfl)⟩

theorem Plain.shifts_moved (h : m.Plain) (address : Int) (s : Mnemonic.Shift) :
    Shifts address 1 m (m.moved address s) := by
  have hflat : (m.memory.noted address).Flat := h.flat
  refine ⟨.stored h hflat (m.memory.cell_noted address) address _ _, fun r => ?_⟩
  cases r <;> rfl

theorem Plain.cell_moved (h : m.Plain) (address : Int) (s : Mnemonic.Shift) :
    (m.moved address s).memory.cell address = byte s.result := by
  have hflat : (m.memory.noted address).Flat := h.flat
  rw [moved, Memory.cell_stored hflat, if_pos rfl, byte_val]

theorem carryBit_moved (m : Machine) (address : Int) (s : Mnemonic.Shift) :
    (m.moved address s).registers.carryBit = s.out.toNat := by
  change (if s.out then 1 else 0) = s.out.toNat
  cases s.out <;> rfl

end Machine

namespace Mnemonic

open Machine

/-- From the lowest byte up: `first` there, and a rotation at each byte above. -/
def leftward (first : Mnemonic) (start : Int) : Nat → List (Mnemonic × Int)
  | 0 => []
  | count + 1 => (first, start) :: leftward rol (start + 1) count

/-- From the highest byte down: `first` there, and a rotation at each byte below. -/
def rightward (first : Mnemonic) (start : Int) : Nat → List (Mnemonic × Int)
  | 0 => []
  | count + 1 => (first, start + count) :: rightward ror start count

/-- The instructions make the number in the area `value` and the carry `carry`; A, X and Y stay, and so
do the bytes outside the area. -/
def Makes (instructions : List (Mnemonic × Int)) (m : Machine) (start : Int) (count : Nat)
    (value : Nat) (carry : Bool) : Prop :=
  ∃ m', inTurn instructions m = .ok () m' ∧ m'.memory.number start count = value ∧
    m'.registers.carry = carry ∧ Shifts start count m m'

variable {m : Machine} {start : Int} {count : Nat}

theorem shift_plain (h : m.Plain) (move : Byte → Nat → Shift) (address : Int) :
    shift move (some address) m =
      .ok () (m.moved address (move (m.memory.cell address) m.registers.carryBit)) := by
  let s := move (m.memory.cell address) m.registers.carryBit
  let m₁ : Machine := { m with
    memory := m.memory.noted address
    registers := (m.registers.setCarry s.out).normalize s.result }
  have h₁ : m₁.Plain := ⟨h.flat, h.bare⟩
  change (read address >>= _) m = _
  rw [bind_ok (h.read address)]
  exact h₁.write address (byte s.result)

/-- A shift that lets nothing in is a rotation without carry. -/
theorem shift_withoutCarry (h : m.Plain) (move : Byte → Nat → Shift) (address : Int) :
    shift (fun b _ => move b 0) (some address) m = shift move (some address) m.withoutCarry := by
  rw [shift_plain h, shift_plain h.withoutCarry]
  rfl

/-- The bit that falls out of a byte to the left stands above it. -/
theorem shiftLeft_value (b : Byte) {fill : Nat} (h : fill ≤ 1) :
    (byte (shiftLeft b fill).result).toNat + 256 * (shiftLeft b fill).out.toNat =
      2 * b.toNat + fill := by
  have hbyte : ((byte (shiftLeft b fill).result).toNat : Int) = (2 * (b : Int) + fill) % 0x100 :=
    val_byte _
  have hb := b.toNat_lt
  have hout : (shiftLeft b fill).out = decide (0x80 ≤ b.toNat) :=
    decide_eq_decide.mpr UInt8.le_iff_toNat_le
  by_cases hhigh : 0x80 ≤ b.toNat
  · rw [hout, decide_eq_true hhigh, Bool.toNat_true]
    omega
  · rw [hout, decide_eq_false hhigh, Bool.toNat_false]
    omega

/-- The bit that falls out of a byte to the right stands below it. -/
theorem shiftRight_value (b : Byte) {fill : Nat} (h : fill ≤ 1) :
    2 * (byte (shiftRight b fill).result).toNat + (shiftRight b fill).out.toNat =
      b.toNat + 256 * fill := by
  have hbyte : ((byte (shiftRight b fill).result).toNat : Int) =
      ((b : Int) / 2 + 0x80 * fill) % 0x100 := val_byte _
  have hb := b.toNat_lt
  have hout : (shiftRight b fill).out = decide (b.toNat % 2 = 1) := by
    refine decide_eq_decide.mpr ?_
    rw [← UInt8.toNat_inj, UInt8.toNat_mod]
    rfl
  by_cases hodd : b.toNat % 2 = 1
  · rw [hout, decide_eq_true hodd, Bool.toNat_true]
    omega
  · rw [hout, decide_eq_false hodd, Bool.toNat_false]
    omega

theorem rol_value (h : m.Plain) (address : Int) :
    ∃ m', rol.execute (some address) m = .ok () m' ∧ Shifts address 1 m m' ∧
      (m'.memory.cell address).toNat + 256 * m'.registers.carryBit =
        2 * (m.memory.cell address).toNat + m.registers.carryBit := by
  refine ⟨_, shift_plain h shiftLeft address, h.shifts_moved address _, ?_⟩
  rw [h.cell_moved, ← shiftLeft_value _ m.registers.carryBit_le, carryBit_moved]

theorem ror_value (h : m.Plain) (address : Int) :
    ∃ m', ror.execute (some address) m = .ok () m' ∧ Shifts address 1 m m' ∧
      2 * (m'.memory.cell address).toNat + m'.registers.carryBit =
        (m.memory.cell address).toNat + 256 * m.registers.carryBit := by
  refine ⟨_, shift_plain h shiftRight address, h.shifts_moved address _, ?_⟩
  rw [h.cell_moved, ← shiftRight_value _ m.registers.carryBit_le, carryBit_moved]

/-- Up the bytes of an area, the carry stands above what is done, until it stands above it all. -/
theorem leftward_value (h : m.Plain) (start : Int) (hcount : count ≤ 0x10000) :
    ∃ m', inTurn (leftward rol start count) m = .ok () m' ∧ Shifts start count m m' ∧
      m'.memory.number start count + 256 ^ count * m'.registers.carryBit =
        2 * m.memory.number start count + m.registers.carryBit := by
  induction count generalizing m start with
  | zero => exact ⟨m, rfl, ⟨.refl h, fun _ => rfl⟩, by simp [Memory.number]⟩
  | succ count ih =>
    obtain ⟨m₁, hfirst, h₁, hlowest⟩ := rol_value h start
    obtain ⟨m₂, hrest, h₂, habove⟩ := ih h₁.plain (start + 1) (by omega)
    have hcell : m₂.memory.cell start = m₁.memory.cell start := by
      refine h₂.outside start fun i hi => ?_
      unfold word
      omega
    have hnumber : m₁.memory.number (start + 1) count = m.memory.number (start + 1) count := by
      refine h₁.digits_eq (fun j hj i hi => ?_) _
      unfold word
      omega
    refine ⟨m₂, (inTurn_cons hfirst).trans hrest, ?_, ?_⟩
    · exact (h₁.widen 0 (by simp) (by omega)).trans (h₂.widen 1 rfl (by omega))
    · rw [hnumber] at habove
      unfold Memory.number at habove ⊢
      rw [Memory.digits_succ, Memory.digits_succ, hcell, Nat.pow_succ', Nat.mul_assoc]
      omega

/-- Down the bytes of an area, the carry stands below what is done, until it stands below it all. -/
theorem rightward_value (h : m.Plain) (start : Int) (hcount : count ≤ 0x10000) :
    ∃ m', inTurn (rightward ror start count) m = .ok () m' ∧ Shifts start count m m' ∧
      2 * m'.memory.number start count + m'.registers.carryBit =
        m.memory.number start count + 256 ^ count * m.registers.carryBit := by
  induction count generalizing m with
  | zero => exact ⟨m, rfl, ⟨.refl h, fun _ => rfl⟩, by simp [Memory.number]⟩
  | succ count ih =>
    obtain ⟨m₁, hfirst, h₁, hhighest⟩ := ror_value h (start + count)
    obtain ⟨m₂, hrest, h₂, hbelow⟩ := ih h₁.plain (by omega)
    have hcell : m₂.memory.cell (start + count) = m₁.memory.cell (start + count) := by
      refine h₂.outside _ fun i hi => ?_
      unfold word
      omega
    have hnumber : m₁.memory.number start count = m.memory.number start count := by
      refine h₁.digits_eq (fun j hj i hi => ?_) _
      unfold word
      omega
    refine ⟨m₂, (inTurn_cons hfirst).trans hrest, ?_, ?_⟩
    · exact (h₁.widen count rfl (by omega)).trans (h₂.widen 0 (by simp) (by omega))
    · rw [hnumber] at hbelow
      have hcarry : 256 ^ (count + 1) * m.registers.carryBit =
          256 ^ count * (256 * m.registers.carryBit) := by
        rw [Nat.pow_succ, Nat.mul_assoc]
      -- The equation of the highest byte, at the place where that byte stands.
      have hplace : 256 ^ count * (2 * (m₁.memory.cell (start + count)).toNat +
            m₁.registers.carryBit) =
          256 ^ count * ((m.memory.cell (start + count)).toNat + 256 * m.registers.carryBit) := by
        rw [hhighest]
      unfold Memory.number at hbelow ⊢
      rw [Memory.digits_top, Memory.digits_top, hcell, hcarry]
      rw [Nat.mul_add, Nat.mul_add, Nat.mul_left_comm] at hplace
      omega

/-- Half of the numbers of an area have their highest bit set. -/
theorem pow_eq_double (hpos : 1 ≤ count) : 256 ^ count = 2 * 2 ^ (8 * count - 1) := by
  rw [← Nat.pow_succ', show (256 : Nat) = 2 ^ 8 from rfl, ← Nat.pow_mul]
  congr 1
  omega

theorem testBit_top {v : Nat} (hpos : 1 ≤ count) (hv : v < 256 ^ count) :
    v.testBit (8 * count - 1) = decide (2 ^ (8 * count - 1) ≤ v) := by
  have hdouble := pow_eq_double hpos
  by_cases hhigh : 2 ^ (8 * count - 1) ≤ v
  · rw [decide_eq_true hhigh]
    exact Nat.testBit_of_two_pow_le_and_two_pow_add_one_gt hhigh (by rw [Nat.pow_succ]; omega)
  · rw [decide_eq_false hhigh]
    exact Nat.testBit_lt_two_pow (by omega)

theorem leftward_makes (h : m.Plain) (start : Int) (hpos : 1 ≤ count) (hcount : count ≤ 0x10000) :
    Makes (leftward rol start count) m start count
      ((2 * m.memory.number start count + m.registers.carryBit) % 256 ^ count)
      ((m.memory.number start count).testBit (8 * count - 1)) := by
  obtain ⟨m', hrun, hshifts, hvalue⟩ := leftward_value h start hcount
  have hv := m.memory.number_lt start count
  have hc := m.registers.carryBit_le
  have hdouble := pow_eq_double hpos
  obtain ⟨hnumber, hcarry⟩ := Registers.carried (m'.memory.number_lt start count) hvalue
  refine ⟨m', hrun, hnumber, ?_, hshifts⟩
  rw [testBit_top hpos hv, Bool.eq_iff_iff, hcarry, decide_eq_true_iff]
  omega

theorem rightward_makes (h : m.Plain) (start : Int) (hpos : 1 ≤ count) (hcount : count ≤ 0x10000) :
    Makes (rightward ror start count) m start count
      (m.memory.number start count / 2 + m.registers.carryBit * 2 ^ (8 * count - 1))
      ((m.memory.number start count).testBit 0) := by
  obtain ⟨m', hrun, hshifts, hvalue⟩ := rightward_value h start hcount
  have hdouble : 256 ^ count * m.registers.carryBit =
      2 * (m.registers.carryBit * 2 ^ (8 * count - 1)) := by
    rw [pow_eq_double hpos, Nat.mul_assoc, Nat.mul_comm (2 ^ _)]
  have hc := m'.registers.carryBit_le
  refine ⟨m', hrun, by omega, ?_, hshifts⟩
  rw [Registers.carry_eq, Nat.testBit_zero, decide_eq_decide]
  omega

/-- A chain that begins with a shift is one that begins with a rotation without carry. -/
theorem Makes.of_withoutCarry {first rotation : Mnemonic} {address : Int}
    {rest : List (Mnemonic × Int)} {value : Nat} {carry : Bool}
    (hfirst : first.execute (some address) m = rotation.execute (some address) m.withoutCarry)
    (h : Makes ((rotation, address) :: rest) m.withoutCarry start count value carry) :
    Makes ((first, address) :: rest) m start count value carry := by
  obtain ⟨m', hrun, hnumber, hcarry, hshifts⟩ := h
  refine ⟨m', ?_, hnumber, hcarry, hshifts.of_withoutCarry⟩
  rw [← hrun]
  simp only [inTurn, bind, EStateM.bind, hfirst]

/-- Shifts and rotations of any length. A rotation to the left is undone by one to the right. -/
theorem chains_make (h : m.Plain) (start : Int) (hpos : 1 ≤ count) (hcount : count ≤ 0x10000) :
    let v := m.memory.number start count
    let c := m.registers.carryBit
    Makes (leftward asl start count) m start count (2 * v % 256 ^ count)
      (v.testBit (8 * count - 1)) ∧
    Makes (rightward lsr start count) m start count (v / 2) (v.testBit 0) ∧
    Makes (leftward rol start count) m start count ((2 * v + c) % 256 ^ count)
      (v.testBit (8 * count - 1)) ∧
    Makes (rightward ror start count) m start count (v / 2 + c * 2 ^ (8 * count - 1))
      (v.testBit 0) ∧
    Makes (leftward rol start count ++ rightward ror start count) m start count v
      m.registers.carry := by
  intro v c
  refine ⟨?_, ?_, leftward_makes h start hpos hcount, rightward_makes h start hpos hcount, ?_⟩
  · have hrotated := leftward_makes h.withoutCarry start hpos hcount
    obtain ⟨rest, rfl⟩ := Nat.exists_eq_add_of_le' hpos
    have hfirst : asl.execute (some start) m = rol.execute (some start) m.withoutCarry :=
      shift_withoutCarry h shiftLeft start
    exact .of_withoutCarry hfirst hrotated
  · have hrotated := rightward_makes h.withoutCarry start hpos hcount
    have hnothing : m.withoutCarry.registers.carryBit = 0 := rfl
    rw [hnothing, Nat.zero_mul] at hrotated
    obtain ⟨rest, rfl⟩ := Nat.exists_eq_add_of_le' hpos
    have hfirst : lsr.execute (some (start + rest)) m =
        ror.execute (some (start + rest)) m.withoutCarry := shift_withoutCarry h shiftRight _
    exact .of_withoutCarry hfirst hrotated
  · obtain ⟨m₁, hleft, h₁, hup⟩ := leftward_value h start hcount
    obtain ⟨m₂, hright, h₂, hdown⟩ := rightward_value h₁.plain start hcount
    have hc := m.registers.carryBit_le
    have hc₂ := m₂.registers.carryBit_le
    -- The two invariants share a side, so twice the number and the carry are as before.
    have hcarry : m₂.registers.carryBit = m.registers.carryBit := by omega
    refine ⟨m₂, (inTurn_append hleft).trans hright, by omega, ?_, h₁.trans h₂⟩
    rw [Registers.carry_eq, hcarry, ← Registers.carry_eq]

/-- Two bytes around the end of memory, with both outer bits and the carry set. -/
theorem chains_make_straddling :
    let m : Machine := {
      memory := (({} : Memory).stored 0xFFFF 0x01).stored 0 0x81
      registers := { carry := true } }
    m.Plain ∧ m.memory.number 0xFFFF 2 = 0x8101 ∧
      Makes (leftward asl 0xFFFF 2) m 0xFFFF 2 0x0202 true ∧
      Makes (rightward lsr 0xFFFF 2) m 0xFFFF 2 0x4080 true ∧
      Makes (leftward rol 0xFFFF 2) m 0xFFFF 2 0x0203 true ∧
      Makes (rightward ror 0xFFFF 2) m 0xFFFF 2 0xC080 true ∧
      Makes (leftward rol 0xFFFF 2 ++ rightward ror 0xFFFF 2) m 0xFFFF 2 0x8101 true := by
  intro m
  have hblank : Memory.Flat {} := Bus.flat_blank
  have hplain : m.Plain := ⟨(hblank.stored _ _).stored _ _, rfl⟩
  have hcell (a : Int) : m.memory.cell a =
      if word a = word 0 then byte 0x81 else
        if word a = word 0xFFFF then byte 0x01 else Memory.cell {} a := by
    have hlast := Memory.cell_stored (hblank.stored 0xFFFF 0x01) 0 0x81 a
    rw [Memory.cell_stored hblank] at hlast
    exact hlast
  have hnumber : m.memory.number 0xFFFF 2 = 0x8101 := by
    simp [Memory.number, Memory.digits_succ, hcell, word]
    rfl
  have htop : Nat.testBit 0x8101 (8 * 2 - 1) = true := by decide
  have hlowest : Nat.testBit 0x8101 0 = true := by decide
  have hcarry : m.registers.carryBit = 1 := rfl
  have hmake := chains_make hplain 0xFFFF (by decide : 1 ≤ 2) (by decide)
  simp only [hnumber, htop, hlowest, hcarry] at hmake
  exact ⟨hplain, hnumber, hmake⟩

end Mnemonic

end Micro6502
