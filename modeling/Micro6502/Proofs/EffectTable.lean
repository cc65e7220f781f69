import Micro6502.Proofs.StepOutcome
import Micro6502.Proofs.WellFormed

namespace Micro6502

theorem Registers.carryBit_eq (r : Registers) : r.carryBit = r.carry.toNat := by
  unfold carryBit
  cases r.carry <;> rfl

namespace Mnemonic

def stores (e : Option Int) (sp : Int) : Mnemonic → List Int
  | sta | stx | sty | inc | dec | asl | lsr | rol | ror => e.toList
  | pha => [0x0100 + sp]
  | jsr => [0x0100 + sp, 0x0100 + (sp - 1) % 0x100]
  | _ => []

def pointer (r : Registers) (sp : Int) : Mnemonic → Int
  | txs => r.x
  | pha => (sp - 1) % 0x100
  | pla => (sp + 1) % 0x100
  | jsr => (sp - 2) % 0x100
  | rts => (sp + 2) % 0x100
  | _ => sp

def jumps (r : Registers) : Mnemonic → Bool
  | jmp | jsr => true
  | bcc => !r.carry
  | bcs => r.carry
  | beq => r.zero
  | bne => !r.zero
  | bmi => r.negative
  | bpl => !r.negative
  | _ => false

def plain : Mnemonic → Bool
  | txs | pha | pla | jsr | rts | jmp | bcc | bcs | beq | bne | bmi | bpl => false
  | _ => true

/-- The register that gets the result. A shift without an address works on A. -/
def target? (e : Option Int) : Mnemonic → Option Register
  | lda | txa | tya | adc | sbc | and | ora | eor | pla => some .a
  | asl | lsr | rol | ror => if e.isNone then some .a else none
  | ldx | tax | tsx | inx | dex => some .x
  | ldy | tay | iny | dey => some .y
  | _ => none

def rewrites : Mnemonic → Bool
  | inc | dec | asl | lsr | rol | ror => true
  | _ => false

def changesCarry : Mnemonic → Bool
  | adc | sbc | cmp | cpx | cpy | asl | lsr | rol | ror | clc | sec => true
  | _ => false

/-- The result whose sign and zeroness N and Z tell of, unless the instruction leaves them alone; `b` is
the byte that it works on. -/
def result? (r : Registers) (sp : Int) (b : Byte) : Mnemonic → Option Byte
  | lda | ldx | ldy | pla => some b
  | tax | tay => some r.a
  | txa => some r.x
  | tya => some r.y
  | tsx => some (byte sp)
  | adc => some (byte (r.a + b + r.carry.toNat))
  | sbc => some (byte (r.a - b - (1 - r.carry.toNat)))
  | cmp => some (byte (r.a - b))
  | cpx => some (byte (r.x - b))
  | cpy => some (byte (r.y - b))
  | and | bit => some (r.a &&& b)
  | ora => some (r.a ||| b)
  | eor => some (r.a ^^^ b)
  | asl => some (byte (2 * b))
  | rol => some (byte (2 * b + r.carry.toNat))
  | lsr => some (byte (b / 2))
  | ror => some (byte (b / 2 + 0x80 * r.carry.toNat))
  | inc => some (byte (b + 1))
  | dec => some (byte (b - 1))
  | inx => some (byte (r.x + 1))
  | dex => some (byte (r.x - 1))
  | iny => some (byte (r.y + 1))
  | dey => some (byte (r.y - 1))
  | _ => none

/-- What an instruction with the effective address `e`, working on the byte `b`, makes of the
registers `r`. -/
structure Sets (mnemonic : Mnemonic) (e : Option Int) (sp : Int) (b : Byte) (r r' : Registers) :
    Prop where
  others : ∀ n, mnemonic.target? e ≠ some n → r'.get n = r.get n
  carry : mnemonic.changesCarry = false → r'.carry = r.carry
  quiet : mnemonic.result? r sp b = none → r'.negative = r.negative ∧ r'.zero = r.zero
  result : ∀ v, mnemonic.result? r sp b = some v →
    r'.negative = decide (0x80 ≤ v) ∧ r'.zero = decide (v = 0) ∧
      ∀ n, mnemonic.target? e = some n → r'.get n = v

/-- What such an instruction makes of a machine; `next` is the address of the instruction after it. -/
structure Transforms (mnemonic : Mnemonic) (e : Option Int) (b : Byte) (next : Int)
    (m m' : Machine) : Prop where
  bytes : ∀ a, (∀ s ∈ mnemonic.stores e m.memory.sp, word s ≠ word a) →
    m'.memory.cell a = m.memory.cell a
  rewritten : mnemonic.rewrites = true → ∀ a ∈ e, ∀ v,
    mnemonic.result? m.registers m.memory.sp b = some v → m'.memory.cell a = v
  pointer : m'.memory.sp = mnemonic.pointer m.registers m.memory.sp
  jumped : mnemonic.jumps m.registers = true → e = some m'.memory.pc
  advanced : mnemonic.jumps m.registers = false → mnemonic ≠ rts → m'.memory.pc = next
  registers : mnemonic.Sets e m.memory.sp b m.registers m'.registers

end Mnemonic

namespace Machine

/-- The byte that an instruction works on: a pull finds it on the stack, a shift without an address
in A, and any other instruction by a read at its effective address. -/
def operandOf (m : Machine) (mnemonic : Mnemonic) (e : Option Int) : Byte :=
  match mnemonic, e with
  | .pla, _ => m.memory.cell (0x0100 + (m.memory.sp + 1) % 0x100)
  | _, some address => m.seen address
  | _, none => m.registers.a

def withRandom (random : Random) (m : Machine) : Machine :=
  { m with io := m.io.map fun io => { io with random } }

end Machine

namespace Mnemonic.Sets

variable {mnemonic : Mnemonic} {e : Option Int} {sp : Int} {b : Byte} {r : Registers}

/-- A result that goes to a register. -/
theorem set {c : Bool} {target : Register} {n : Int} (ht : mnemonic.target? e = some target)
    (hv : mnemonic.result? r sp b = some (byte n))
    (hc : mnemonic.changesCarry = false → c = r.carry) :
    mnemonic.Sets e sp b r ((r.setCarry c).set target n) where
  others other h := by
    have hne : other ≠ target := fun he => h (he ▸ ht)
    rw [Registers.get_set, if_neg hne]
    rfl
  carry h := by
    have := hc h
    cases target <;> exact this
  quiet h := by simp [hv] at h
  result v h := by
    cases hv.symm.trans h
    refine ⟨by cases target <;> rfl, by cases target <;> rfl, fun other ho => ?_⟩
    cases ht.symm.trans ho
    rw [Registers.get_set, if_pos rfl]

/-- A result that is only looked at, or goes to memory. -/
theorem normalize {c : Bool} {n : Int} (ht : mnemonic.target? e = none)
    (hv : mnemonic.result? r sp b = some (byte n))
    (hc : mnemonic.changesCarry = false → c = r.carry) :
    mnemonic.Sets e sp b r ((r.setCarry c).normalize n) where
  others other _ := by cases other <;> rfl
  carry := hc
  quiet h := by simp [hv] at h
  result v h := by
    cases hv.symm.trans h
    exact ⟨rfl, rfl, fun other ho => by simp [ht] at ho⟩

theorem setCarry {c : Bool} (hv : mnemonic.result? r sp b = none)
    (hc : mnemonic.changesCarry = false → c = r.carry) :
    mnemonic.Sets e sp b r (r.setCarry c) where
  others other _ := by cases other <;> rfl
  carry := hc
  quiet _ := ⟨rfl, rfl⟩
  result v h := by simp [hv] at h

end Mnemonic.Sets

namespace Machine

variable {m m' : Machine} {e : Option Int}

structure Stays (m m' : Machine) : Prop where
  cell : ∀ a, m'.memory.cell a = m.memory.cell a
  pc : m'.memory.pc = m.memory.pc
  sp : m'.memory.sp = m.memory.sp

theorem stays_asked (m : Machine) (address : Int) : Stays m (m.asked address) := by
  rcases m.asked_cases address with ⟨io, random, -, he⟩ | he
  · rw [he]
    exact ⟨fun _ => rfl, rfl, rfl⟩
  · rw [he]
    exact ⟨m.memory.cell_noted address, rfl, rfl⟩

@[simp] theorem asked_registers (m : Machine) (address : Int) :
    (m.asked address).registers = m.registers := by
  rcases m.asked_cases address with ⟨io, random, -, he⟩ | he <;> rw [he]

theorem asked_flat (h : m.memory.Flat) (address : Int) : (m.asked address).memory.Flat := by
  rcases m.asked_cases address with ⟨io, random, -, he⟩ | he
  · rw [he]
    exact h
  · rw [he]
    exact h.noted address

theorem write_ok {address value : Int} (hw : write address value m = .ok () m')
    (h : m.memory.Flat) : m' = m.shown address value := by
  rw [← after_ok hw, after_write h]

theorem modifyRegisters_ok (g : Registers → Registers) (m : Machine) :
    modifyRegisters g m = .ok () { m with registers := g m.registers } := rfl

theorem operandOf_some {mnemonic : Mnemonic} (h : mnemonic ≠ .pla) (m : Machine) (address : Int) :
    m.operandOf mnemonic (some address) = m.seen address := by
  cases mnemonic with
  | pla => exact absurd rfl h
  | _ => rfl

end Machine

namespace Mnemonic

open Machine

variable {mnemonic : Mnemonic} {m m' : Machine} {e : Option Int} {b : Byte} {a : Int}

theorem pointer_plain (h : mnemonic.plain = true) (r : Registers) (sp : Int) :
    mnemonic.pointer r sp = sp := by
  cases mnemonic <;> first | rfl | cases h

theorem jumps_plain (h : mnemonic.plain = true) (r : Registers) : mnemonic.jumps r = false := by
  cases mnemonic <;> first | rfl | cases h

theorem ne_pla (h : mnemonic.plain = true) : mnemonic ≠ .pla := by
  rintro rfl
  cases h

theorem Transforms.of_stays (h : mnemonic.plain = true) (hs : Stays m m')
    (hr : mnemonic.rewrites = true → e = none)
    (hsets : mnemonic.Sets e m.memory.sp b m.registers m'.registers) :
    mnemonic.Transforms e b m.memory.pc m m' where
  bytes a _ := hs.cell a
  rewritten hw a ha := by simp [hr hw] at ha
  pointer := hs.sp.trans (pointer_plain h _ _).symm
  jumped hj := by simp [jumps_plain h] at hj
  advanced _ _ := hs.pc
  registers := hsets

theorem operand_ok (h : m.memory.Flat) (ho : operand e m = .ok b m') :
    ∃ a, e = some a ∧ b = m.seen a ∧ m' = m.asked a := by
  cases e with
  | none => cases ho
  | some a =>
    have hread : read a m = .ok b m' := ho
    rw [read_flat h a] at hread
    cases hread
    exact ⟨a, rfl, rfl, rfl⟩

/-- An instruction that reads its operand and sets registers by it. -/
theorem operand_transforms {g : Byte → Registers → Registers} (h : m.memory.Flat)
    (hact : (operand e >>= fun b => modifyRegisters (g b)) m = .ok () m')
    (hp : mnemonic.plain = true) (hr : mnemonic.rewrites = false)
    (hsets : ∀ b, mnemonic.Sets e m.memory.sp b m.registers (g b m.registers)) :
    mnemonic.Transforms e (m.operandOf mnemonic e) m.memory.pc m m' := by
  obtain ⟨b, m₁, ho, hg⟩ := bind_eq_ok.mp hact
  obtain ⟨a, rfl, rfl, rfl⟩ := operand_ok h ho
  rw [modifyRegisters_ok, asked_registers] at hg
  cases hg
  have hs := m.stays_asked a
  refine .of_stays hp ⟨hs.cell, hs.pc, hs.sp⟩ (fun hw => by simp [hr] at hw) ?_
  rw [operandOf_some (ne_pla hp)]
  exact hsets _

/-- An instruction that works on registers alone. -/
theorem update_transforms {g : Registers → Registers}
    (hact : modifyRegisters g m = .ok () m') (hp : mnemonic.plain = true)
    (hr : mnemonic.rewrites = true → e = none)
    (hsets : mnemonic.Sets e m.memory.sp b m.registers (g m.registers)) :
    mnemonic.Transforms e b m.memory.pc m m' := by
  rw [modifyRegisters_ok] at hact
  cases hact
  exact .of_stays hp ⟨fun _ => rfl, rfl, rfl⟩ hr hsets

theorem transfer_transforms {source target : Register} (hact : transfer source target m = .ok () m')
    (hp : mnemonic.plain = true) (hr : mnemonic.rewrites = false)
    (ht : mnemonic.target? e = some target)
    (hv : ∀ r sp b, mnemonic.result? r sp b = some (r.get source)) :
    mnemonic.Transforms e b m.memory.pc m m' := by
  have hset : modifyRegisters (fun r => r.set target (r.get source)) m = .ok () m' := hact
  refine update_transforms hset hp (fun hw => by simp [hr] at hw) ?_
  exact .set (c := m.registers.carry) ht (by rw [hv, byte_val]) fun _ => rfl

theorem count_transforms {target : Register} {amount : Int}
    (hact : count target amount m = .ok () m') (hp : mnemonic.plain = true)
    (hr : mnemonic.rewrites = false) (ht : mnemonic.target? e = some target)
    (hv : ∀ r sp b, mnemonic.result? r sp b = some (byte (r.get target + amount))) :
    mnemonic.Transforms e b m.memory.pc m m' := by
  refine update_transforms hact hp (fun hw => by simp [hr] at hw) ?_
  exact .set (c := m.registers.carry) ht (hv _ _ _) fun _ => rfl

theorem logical_transforms {join : Byte → Byte → Byte} (h : m.memory.Flat)
    (hact : logical join e m = .ok () m') (hp : mnemonic.plain = true)
    (hr : mnemonic.rewrites = false) (ht : mnemonic.target? e = some .a)
    (hv : ∀ r sp b, mnemonic.result? r sp b = some (join r.a b)) :
    mnemonic.Transforms e (m.operandOf mnemonic e) m.memory.pc m m' := by
  refine operand_transforms (g := fun b r => r.set .a (join r.a b)) h hact hp hr fun b => ?_
  exact .set (c := m.registers.carry) ht (by rw [hv, byte_val]) fun _ => rfl

/-- An instruction that does nothing, a branch that is not taken among them. -/
theorem idle_transforms (hj : mnemonic.jumps m.registers = false)
    (hp : mnemonic.pointer m.registers m.memory.sp = m.memory.sp) (hr : mnemonic.rewrites = false)
    (hv : mnemonic.result? m.registers m.memory.sp b = none) :
    mnemonic.Transforms e b m.memory.pc m m where
  bytes _ _ := rfl
  rewritten hw := by simp [hr] at hw
  pointer := hp.symm
  jumped h := by simp [hj] at h
  advanced _ _ := rfl
  registers := .setCarry hv fun _ => rfl

/-- An instruction that stores the byte `v` at its address, after it has set registers by it or not. -/
theorem shown_transforms {m₁ : Machine} {v : Byte} (hs : Stays m m₁) (h₁ : m₁.memory.Flat)
    (hp : mnemonic.plain = true) (hstores : ∀ sp, mnemonic.stores (some a) sp = [a])
    (hv : ∀ w, mnemonic.rewrites = true →
      mnemonic.result? m.registers m.memory.sp b = some w → w = v)
    (hsets : mnemonic.Sets (some a) m.memory.sp b m.registers m₁.registers) :
    mnemonic.Transforms (some a) b m.memory.pc m (m₁.shown a v) where
  bytes other hother := by
    have hne : word other ≠ word a := Ne.symm (hother a (by simp [hstores]))
    exact (Memory.cell_stored h₁ a v other).trans ((if_neg hne).trans (hs.cell other))
  rewritten hw a' ha w hr := by
    cases ha
    rw [hv w hw hr]
    exact (Memory.cell_stored h₁ a v a).trans ((if_pos rfl).trans (byte_val v))
  pointer := hs.sp.trans (pointer_plain hp _ _).symm
  jumped hj := by simp [jumps_plain hp] at hj
  advanced _ _ := hs.pc
  registers := hsets

theorem store_transforms {source : Register} (h : m.memory.Flat)
    (hact : store source e m = .ok () m') (hp : mnemonic.plain = true)
    (hr : mnemonic.rewrites = false) (hstores : ∀ a sp, mnemonic.stores (some a) sp = [a])
    (hv : ∀ r sp b, mnemonic.result? r sp b = none) :
    mnemonic.Transforms e b m.memory.pc m m' := by
  cases e with
  | none => cases hact
  | some a =>
    have hw : write a (m.registers.get source) m = .ok () m' := hact
    obtain rfl := write_ok hw h
    exact shown_transforms ⟨fun _ => rfl, rfl, rfl⟩ h hp (hstores a)
      (fun w hw => by simp [hr] at hw) (.setCarry (hv _ _ _) fun _ => rfl)

/-- An instruction that reads a byte at its address, sets registers by it and stores another one. -/
theorem rewrite_transforms {g : Registers → Registers} {v : Byte} (h : m.memory.Flat)
    (hact : (do modifyRegisters g; write a v : MachineM Unit) (m.asked a) = .ok () m')
    (hp : mnemonic.plain = true) (hstores : ∀ sp, mnemonic.stores (some a) sp = [a])
    (hv : mnemonic.result? m.registers m.memory.sp (m.seen a) = some v)
    (hsets : mnemonic.Sets (some a) m.memory.sp (m.seen a) m.registers (g m.registers)) :
    mnemonic.Transforms (some a) (m.operandOf mnemonic (some a)) m.memory.pc m m' := by
  have hs := m.stays_asked a
  have hflat := asked_flat h a
  rw [bind_ok (modifyRegisters_ok g _), asked_registers] at hact
  have hstays : Stays m { m.asked a with registers := g m.registers } := ⟨hs.cell, hs.pc, hs.sp⟩
  obtain rfl := write_ok hact hflat
  rw [operandOf_some (ne_pla hp)]
  exact shown_transforms hstays hflat hp hstores (fun w _ hw => by cases hv.symm.trans hw; rfl)
    hsets

/-- A shift of the byte at its address, or of A. -/
theorem shift_transforms {move : Byte → Nat → Shift} (h : m.memory.Flat)
    (hact : shift move e m = .ok () m') (hp : mnemonic.plain = true)
    (hstores : ∀ a sp, mnemonic.stores (some a) sp = [a])
    (htarget : mnemonic.target? e = if e.isNone then some .a else none)
    (hc : mnemonic.changesCarry = true)
    (hv : ∀ b, mnemonic.result? m.registers m.memory.sp b =
      some (byte (move b m.registers.carryBit).result)) :
    mnemonic.Transforms e (m.operandOf mnemonic e) m.memory.pc m m' := by
  cases e with
  | none =>
    cases hact
    have hb : m.operandOf mnemonic none = m.registers.a := by
      cases mnemonic with
      | pla => cases hp
      | _ => rfl
    refine .of_stays hp ⟨fun _ => rfl, rfl, rfl⟩ (fun _ => rfl) ?_
    rw [hb]
    exact .set htarget (hv _) (by simp [hc])
  | some a =>
    have hshift := (bind_ok (f := fun b => do
      modifyRegisters fun r => (r.setCarry (move b m.registers.carryBit).out).normalize
        (move b m.registers.carryBit).result
      write a (byte (move b m.registers.carryBit).result)) (read_flat h a)).symm.trans hact
    exact rewrite_transforms h hshift hp (hstores a) (hv _)
      (.normalize htarget (hv _) (by simp [hc]))

theorem bump_transforms {amount : Int} (h : m.memory.Flat) (hact : bump amount e m = .ok () m')
    (hp : mnemonic.plain = true) (hstores : ∀ a sp, mnemonic.stores (some a) sp = [a])
    (htarget : mnemonic.target? e = none)
    (hv : ∀ b : Byte, mnemonic.result? m.registers m.memory.sp b = some (byte (b + amount))) :
    mnemonic.Transforms e (m.operandOf mnemonic e) m.memory.pc m m' := by
  cases e with
  | none => cases hact
  | some a =>
    have hbump := (bind_ok (f := fun b : Byte => do
      modifyRegisters (·.normalize (b + amount))
      write a (byte (b + amount))) (read_flat h a)).symm.trans hact
    exact rewrite_transforms h hbump hp (hstores a) (hv _)
      (.normalize (c := m.registers.carry) htarget (hv _) fun _ => rfl)

/-- An instruction that jumps once it has done, in `m₁`, what else it does. -/
theorem jump_transforms {m₁ : Machine} (hact : jump e m₁ = .ok () m')
    (hrange : ∀ a ∈ e, 0 ≤ a ∧ a ≤ 0xFFFF) (hj : mnemonic.jumps m.registers = true)
    (hbytes : ∀ a, (∀ s ∈ mnemonic.stores e m.memory.sp, word s ≠ word a) →
      m₁.memory.cell a = m.memory.cell a)
    (hp : m₁.memory.sp = mnemonic.pointer m.registers m.memory.sp)
    (hregisters : m₁.registers = m.registers) (hr : mnemonic.rewrites = false)
    (hv : mnemonic.result? m.registers m.memory.sp b = none) :
    mnemonic.Transforms e b m.memory.pc m m' := by
  cases e with
  | none => cases hact
  | some a =>
    cases hact
    have hword : word a = a := word_of_range (hrange a rfl).1 (hrange a rfl).2
    refine ⟨hbytes, fun hw => by simp [hr] at hw, hp, fun _ => congrArg some hword.symm,
      fun h => by simp [hj] at h, ?_⟩
    rw [hregisters]
    exact .setCarry hv fun _ => rfl

theorem branch_transforms {flag : Flag} {wanted : Bool} (hact : branch flag wanted e m = .ok () m')
    (hrange : ∀ a ∈ e, 0 ≤ a ∧ a ≤ 0xFFFF)
    (hj : mnemonic.jumps m.registers = true ↔ m.registers.flag flag = wanted)
    (hp : ∀ r sp, mnemonic.pointer r sp = sp) (hr : mnemonic.rewrites = false)
    (hv : ∀ r sp b, mnemonic.result? r sp b = none) :
    mnemonic.Transforms e b m.memory.pc m m' := by
  by_cases h : m.registers.flag flag = wanted
  · rw [branch_taken h] at hact
    exact jump_transforms hact hrange (hj.mpr h) (fun _ _ => rfl) (hp _ _).symm rfl hr (hv _ _ _)
  · rw [branch_not_taken h] at hact
    cases hact
    exact idle_transforms (Bool.eq_false_iff.mpr fun hjumps => h (hj.mp hjumps)) (hp _ _) hr
      (hv _ _ _)

/-- Both bytes of the counter go to the stack before the jump. -/
theorem call_transforms (h : m.memory.Flat) (hact : call e m = .ok () m')
    (hrange : ∀ a ∈ e, 0 ≤ a ∧ a ≤ 0xFFFF) :
    jsr.Transforms e b m.memory.pc m m' := by
  rw [call, bind_ok (onMemory_ok (Memory.pushPc_flat h))] at hact
  refine jump_transforms hact hrange rfl (fun a ha => ?_) ?_ rfl rfl rfl
  · have hlo : word a ≠ word (0x0100 + m.memory.sp) := Ne.symm (ha _ (by simp [stores]))
    have hhi : word a ≠ word (0x0100 + (m.memory.sp - 1) % 0x100) :=
      Ne.symm (ha _ (by simp [stores]))
    exact (Memory.cell_pushed (h.pushed _) _ a).trans ((if_neg hhi).trans
      ((Memory.cell_pushed h _ a).trans (if_neg hlo)))
  · change ((m.memory.sp - 1) % 0x100 - 1) % 0x100 = (m.memory.sp - 2) % 0x100
    omega

theorem ret_transforms {next : Int} (h : m.memory.Flat)
    (hact : onMemory Memory.ret m = .ok () m') : rts.Transforms e b next m m' := by
  obtain ⟨pc, hret⟩ := Memory.ret_flat h
  cases (onMemory_ok hret).symm.trans hact
  refine ⟨fun a _ => ?_, nofun, ?_, nofun, fun _ hne => absurd rfl hne, .setCarry rfl fun _ => rfl⟩
  · exact (Memory.cell_noted _ _ a).trans (Memory.cell_noted m.memory _ a)
  · change ((m.memory.sp + 1) % 0x100 + 1) % 0x100 = (m.memory.sp + 2) % 0x100
    omega

theorem push_transforms (h : m.memory.Flat)
    (hact : onMemory (Memory.push m.registers.a) m = .ok () m') :
    pha.Transforms e b m.memory.pc m m' := by
  cases (push_flat h m.registers.a).symm.trans hact
  refine ⟨fun a ha => ?_, nofun, rfl, nofun, fun _ _ => rfl, .setCarry rfl fun _ => rfl⟩
  have hne : word a ≠ word (0x0100 + m.memory.sp) := Ne.symm (ha _ (by simp [stores]))
  exact (Memory.cell_pushed h _ a).trans (if_neg hne)

theorem pull_transforms (h : m.memory.Flat)
    (hact : (onMemory Memory.pull >>= fun b => setRegister .a (b : Byte)) m = .ok () m') :
    pla.Transforms e (m.operandOf pla e) m.memory.pc m m' := by
  rw [bind_ok (pull_flat h)] at hact
  cases hact
  refine ⟨fun a _ => Memory.cell_noted m.memory _ a, nofun, rfl, nofun, fun _ _ => rfl, ?_⟩
  have hv : pla.result? m.registers m.memory.sp (m.operandOf pla e) =
      some (byte (m.operandOf pla e : Byte)) := by
    rw [byte_val]
    rfl
  exact .set (c := m.registers.carry) rfl hv fun _ => rfl

theorem point_transforms (hact : onMemory (Memory.setSp m.registers.x) m = .ok () m') :
    txs.Transforms e b m.memory.pc m m' := by
  cases hact
  exact ⟨fun _ _ => rfl, nofun, rfl, nofun, fun _ _ => rfl, .setCarry rfl fun _ => rfl⟩

/-- What the table says of an instruction is what it does. -/
theorem execute_transforms (mnemonic : Mnemonic) (h : m.memory.Flat)
    (hrange : ∀ a ∈ e, 0 ≤ a ∧ a ≤ 0xFFFF) (hact : mnemonic.execute e m = .ok () m') :
    mnemonic.Transforms e (m.operandOf mnemonic e) m.memory.pc m m' := by
  cases mnemonic with
  | lda | ldx | ldy =>
    refine operand_transforms h hact rfl rfl fun b => ?_
    exact .set (c := m.registers.carry) rfl (by rw [byte_val]; rfl) fun _ => rfl
  | sta | stx | sty =>
    exact store_transforms h hact rfl rfl (fun _ _ => rfl) fun _ _ _ => rfl
  | tax | tay | txa | tya => exact transfer_transforms hact rfl rfl rfl fun _ _ _ => rfl
  | tsx =>
    have hset : modifyRegisters (fun r => r.set .x m.memory.sp) m = .ok () m' := hact
    refine update_transforms hset rfl nofun ?_
    exact .set (c := m.registers.carry) rfl rfl fun _ => rfl
  | txs => exact point_transforms hact
  | inx | iny | dex | dey => exact count_transforms hact rfl rfl rfl fun _ _ _ => rfl
  | adc | sbc =>
    refine operand_transforms h hact rfl rfl fun b => ?_
    exact .set rfl (by rw [Registers.carryBit_eq]; rfl) nofun
  | cmp | cpx | cpy =>
    refine operand_transforms h hact rfl rfl fun b => ?_
    exact .normalize rfl rfl nofun
  | and | ora | eor => exact logical_transforms h hact rfl rfl rfl fun _ _ _ => rfl
  | bit =>
    refine operand_transforms h hact rfl rfl fun b => ?_
    exact .normalize (c := m.registers.carry) rfl (by rw [byte_val]; rfl) fun _ => rfl
  -- the plain shifts are rotations that take in a zero
  | asl =>
    have hshift : shift (fun b _ => shiftLeft b 0) e m = .ok () m' := hact
    exact shift_transforms h hshift rfl (fun _ _ => rfl) rfl rfl fun b => by
      simp [result?, shiftLeft]
  | lsr =>
    have hshift : shift (fun b _ => shiftRight b 0) e m = .ok () m' := hact
    exact shift_transforms h hshift rfl (fun _ _ => rfl) rfl rfl fun b => by
      simp [result?, shiftRight]
  | rol | ror =>
    exact shift_transforms h hact rfl (fun _ _ => rfl) rfl rfl fun b => by
      rw [Registers.carryBit_eq]
      rfl
  | inc | dec => exact bump_transforms h hact rfl (fun _ _ => rfl) rfl fun _ => rfl
  | bcc | bcs | beq | bne | bmi | bpl =>
    exact branch_transforms hact hrange (by simp [jumps, Registers.flag]) (fun _ _ => rfl) rfl
      fun _ _ _ => rfl
  | jmp => exact jump_transforms hact hrange rfl (fun _ _ => rfl) rfl rfl rfl rfl
  | jsr => exact call_transforms h hact hrange
  | rts => exact ret_transforms h hact
  | pha => exact push_transforms h hact
  | pla => exact pull_transforms h hact
  | clc =>
    refine update_transforms (g := (·.setCarry false)) hact rfl nofun ?_
    exact .setCarry rfl nofun
  | sec =>
    refine update_transforms (g := (·.setCarry true)) hact rfl nofun ?_
    exact .setCarry rfl nofun
  | nop | brk =>
    cases hact
    exact idle_transforms rfl rfl rfl rfl

end Mnemonic

namespace Mnemonic.Transforms

variable {mnemonic : Mnemonic} {e : Option Int} {b : Byte} {m m' m₁ m₂ : Machine}

/-- The table speaks of nothing but bytes, counter, pointer and registers. -/
theorem congr (h : mnemonic.Transforms e b m₁.memory.pc m₁ m₂)
    (hcell : ∀ a, m₁.memory.cell a = m.memory.cell a) (hsp : m₁.memory.sp = m.memory.sp)
    (hregisters : m₁.registers = m.registers) (hs : Machine.Stays m₂ m')
    (hregisters' : m'.registers = m₂.registers) :
    mnemonic.Transforms e b m₁.memory.pc m m' where
  bytes a ha := (hs.cell a).trans ((h.bytes a (hsp ▸ ha)).trans (hcell a))
  rewritten hw a ha v hv := by
    rw [hs.cell]
    exact h.rewritten hw a ha v (hsp ▸ hregisters ▸ hv)
  pointer := by rw [hs.sp, h.pointer, hsp, hregisters]
  jumped hj := by
    rw [hs.pc]
    exact h.jumped (hregisters ▸ hj)
  advanced hj hne := by
    rw [hs.pc]
    exact h.advanced (hregisters ▸ hj) hne
  registers := hregisters' ▸ hsp ▸ hregisters ▸ h.registers

end Mnemonic.Transforms

namespace Machine

variable {m m₁ m₂ : Machine} {k : Nat} {d : Decoded} {s : Snapshot}

/-- Once an operand is taken, reads find what they would have found before, with the random source as
it is by now. -/
theorem Took.seen (h : Took m k m₁) :
    ∃ random, (∀ io ∈ m₁.io, io.random = random) ∧
      ∀ address, m₁.seen address = (m.withRandom random).seen address := by
  have hconfig := h.config
  have hconsole := h.console
  cases hio : m.io with
  | none =>
    have hio₁ : m₁.io = none := by simpa [hio] using hconfig
    exact ⟨⟨fun _ => 0, 0⟩, by simp [hio₁],
      fun a => by simp [Machine.seen, withRandom, hio, hio₁, h.cell]⟩
  | some io =>
    obtain ⟨io₁, hio₁, hc⟩ : ∃ io₁, m₁.io = some io₁ ∧ io₁.config = io.config := by
      simpa [hio] using hconfig
    have hl : io₁.console = io.console := by simpa [hio, hio₁] using hconsole
    refine ⟨io₁.random, by simp [hio₁], fun a => ?_⟩
    simp only [Machine.seen, withRandom, hio, hio₁, Option.map_some, Option.bind_some, Io.supply,
      hc, hl, h.cell]
    split_ifs <;> rfl

/-- Only the end of a program does more than its instruction, and that is to halt. -/
theorem execute_eq_ok (h : execute d m = .ok () m₂) :
    ∃ m₁, d.instruction.mnemonic.execute d.address m = .ok () m₁ ∧
      m₂ = { m₁ with status := m₂.status } := by
  obtain ⟨_, m₁, he, h⟩ := bind_eq_ok.mp h
  refine ⟨m₁, he, ?_⟩
  split at h <;> cases h <;> rfl

theorem Took.operandOf (h : Took m k m₁) (mnemonic : Mnemonic) (e : Option Int) :
    ∃ random, (∀ io ∈ m₁.io, io.random = random) ∧
      m₁.operandOf mnemonic e = (m.withRandom random).operandOf mnemonic e := by
  obtain ⟨random, hrandom, hseen⟩ := h.seen
  refine ⟨random, hrandom, ?_⟩
  by_cases hp : mnemonic = .pla
  · subst hp
    simp [Machine.operandOf, withRandom, h.cell, h.sp]
  · cases e with
    | none => cases mnemonic <;> simp_all [Machine.operandOf, withRandom, h.registers]
    | some a => rw [operandOf_some hp, operandOf_some hp, hseen]

/-- What the table says of the instruction at the counter is what a step does to the machine. The
random source is the one that the mode has left when it has found the effective address. -/
theorem step_effects (h : m.memory.Flat) (hr : m.status = .running)
    (hs : outcome step m = .ok s) :
    ∃ d m₁ random, s.decoded = some d ∧
      m.table.get? (m.memory.cell m.memory.pc) = some d.instruction ∧
      d.instruction.mode.resolve m.primed = .ok d.address m₁ ∧ (∀ io ∈ m₁.io, io.random = random) ∧
      d.instruction.mnemonic.Transforms d.address
        ((m.withRandom random).operandOf d.instruction.mnemonic d.address)
        (word (m.memory.pc + s.length)) m (after step m) := by
  cases ht : m.table.get? (m.memory.cell m.memory.pc) with
  | none => simp [step_undefined h hr ht] at hs
  | some i =>
    obtain ⟨d, m₁, hstep, h₁, hd, hresolve⟩ := step_resolved h hr ht
    rw [outcome_eq_ok, hstep] at hs
    obtain ⟨m₂, he, hafter, hsnapshot⟩ := execute_report_ok hs
    obtain ⟨m₃, hexecute, hm₃⟩ := execute_eq_ok he
    obtain ⟨random, hrandom, hoperand⟩ := h₁.operandOf d.instruction.mnemonic d.address
    -- the table speaks of the machine that has taken its operand; what it says holds of `m` too
    have htable := d.instruction.mnemonic.execute_transforms (h₁.flat h) hd.range hexecute
    have hdecoded : s.decoded = some d := by rw [hsnapshot]
    have hnext : m₁.memory.pc = word (m.memory.pc + s.length) := by
      simp [h₁.pc, Snapshot.length, hdecoded, hd.operand, Nat.add_comm]
    have hstays : Stays m₃ (after step m) := by
      rw [hafter, hm₃]
      exact ⟨fun a => Memory.cell_cleared m₃.memory a, rfl, rfl⟩
    have hall := htable.congr h₁.cell h₁.sp h₁.registers hstays (by rw [hafter, hm₃]; rfl)
    rw [hoperand, hnext] at hall
    rw [← hd.instruction] at hresolve
    exact ⟨d, m₁, random, hdecoded, hd.instruction ▸ rfl, hresolve, hrandom, hall⟩

/-- A push lowers the pointer and leaves the flags and the code alone. -/
theorem step_effects_push :
    let m : Machine := { memory := { Memory.loaded {} 0x0600 [0x48] with sp := 0 } }
    m.memory.Flat ∧ m.status = .running ∧ ∃ s, outcome step m = .ok s ∧
      (after step m).memory.sp = 0xFF ∧ (after step m).memory.cell 0x0600 = 0x48 ∧
      (after step m).registers.zero = m.registers.zero := by
  have hblank : Memory.Flat {} := Bus.flat_blank
  have hflat := hblank.loaded 0x0600 [0x48]
  have hcell : (Memory.loaded {} 0x0600 [0x48]).cell 0x0600 = 0x48 := by
    simp only [Memory.loaded]
    rw [Memory.cell_stored hblank, if_pos rfl]
    rfl
  have hpc : (Memory.loaded {} 0x0600 [0x48]).pc = 0x0600 := by
    rw [Memory.loaded_eq]
  generalize Memory.loaded {} 0x0600 [0x48] = memory at hflat hcell hpc ⊢
  intro m
  have ht : m.table.get? (m.memory.cell m.memory.pc) = some ⟨.pha, .implicit⟩ := by
    change OpcodeTable.standard.get? (memory.cell memory.pc) = _
    rw [hpc, hcell]
    rfl
  obtain ⟨s, hs⟩ := step_returns ⟨hflat, by simp [m]⟩ rfl ht rfl
  obtain ⟨d, -, random, -, hd, -, -, heffects⟩ := step_effects (m := m) hflat rfl hs
  have hinstruction : d.instruction = ⟨.pha, .implicit⟩ := Option.some.inj (hd.symm.trans ht)
  rw [hinstruction] at heffects
  refine ⟨hflat, rfl, s, hs, heffects.pointer, ?_, (heffects.registers.quiet rfl).2⟩
  refine (heffects.bytes 0x0600 fun a ha => ?_).trans hcell
  simp only [Mnemonic.stores, List.mem_singleton] at ha
  subst ha
  change word (0x0100 + 0) ≠ word 0x0600
  decide

end Machine

end Micro6502
