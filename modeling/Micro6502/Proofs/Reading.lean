import Micro6502.Proofs.EffectTable

namespace Micro6502

namespace Mnemonic

def compared (source : Register) (b : Byte) (r : Registers) : Registers :=
  (r.setCarry (b ≤ r.get source)).normalize ((r.get source : Int) - b)

def shifted (s : Shift) (r : Registers) : Registers := (r.setCarry s.out).normalize s.result

/-- The registers after an instruction that works on the byte `b`. -/
def uses (b : Byte) (r : Registers) : Mnemonic → Registers
  | lda => r.set .a b
  | ldx => r.set .x b
  | ldy => r.set .y b
  | adc =>
    let total : Int := (r.a : Int) + b + r.carryBit
    (r.setCarry (0xFF < total)).set .a total
  | sbc =>
    let difference : Int := (r.a : Int) - b - (1 - r.carryBit)
    (r.setCarry (0 ≤ difference)).set .a difference
  | cmp => compared .a b r
  | cpx => compared .x b r
  | cpy => compared .y b r
  | and => r.set .a (r.a &&& b : Byte)
  | ora => r.set .a (r.a ||| b : Byte)
  | eor => r.set .a (r.a ^^^ b : Byte)
  | bit => r.normalize (r.a &&& b : Byte)
  | asl => shifted (shiftLeft b 0) r
  | lsr => shifted (shiftRight b 0) r
  | rol => shifted (shiftLeft b r.carryBit) r
  | ror => shifted (shiftRight b r.carryBit) r
  | inc => r.normalize (b + 1)
  | dec => r.normalize (b - 1)
  | _ => r

end Mnemonic

namespace Machine

def used (mnemonic : Mnemonic) (address : Int) (m : Machine) : Machine :=
  { m.asked address with registers := mnemonic.uses (m.seen address) m.registers }

end Machine

namespace Mnemonic

open Machine

variable {mnemonic : Mnemonic} {m : Machine}

theorem operand_used {g : Byte → Registers → Registers} (h : m.memory.Flat) (address : Int)
    (hg : ∀ b r, mnemonic.uses b r = g b r) :
    (read address >>= fun b => modifyRegisters (g b)) m = .ok () (m.used mnemonic address) := by
  rw [bind_ok (read_flat h address), modifyRegisters_ok, asked_registers, used, hg]

theorem logical_used {join : Byte → Byte → Byte} (h : m.memory.Flat) (address : Int)
    (hg : ∀ b r, mnemonic.uses b r = r.set .a (join r.a b : Byte)) :
    logical join (some address) m = .ok () (m.used mnemonic address) :=
  operand_used (g := fun b r => r.set .a (join r.a b : Byte)) h address hg

/-- An instruction that works on a byte in memory and does not store there. -/
theorem execute_used (h : m.memory.Flat) (hreads : mnemonic.readsOperand = true)
    (hkeeps : mnemonic.rewrites = false) (address : Int) :
    mnemonic.execute (some address) m = .ok () (m.used mnemonic address) := by
  cases mnemonic with
  | asl | lsr | rol | ror | inc | dec => cases hkeeps
  | lda | ldx | ldy | adc | sbc | cmp | cpx | cpy | bit =>
    exact operand_used h address fun _ _ => rfl
  | and | ora | eor => exact logical_used h address fun _ _ => rfl
  | _ => cases hreads

/-- Registers are set by the byte, then another one is stored in its place. -/
theorem rewrite_used {g : Registers → Registers} {v : Byte} (address : Int)
    (hg : mnemonic.uses (m.seen address) m.registers = g m.registers) :
    (do modifyRegisters g; write address v : MachineM Unit) (m.asked address) =
      write address v (m.used mnemonic address) := by
  rw [bind_ok (modifyRegisters_ok g _), asked_registers, used, hg]

theorem shift_used (move : Byte → Nat → Shift) (h : m.memory.Flat) (address : Int)
    (hg : ∀ b r, mnemonic.uses b r = shifted (move b r.carryBit) r) :
    ∃ v : Byte, shift move (some address) m = write address v (m.used mnemonic address) := by
  have hshift := bind_ok (f := fun b => do
    modifyRegisters fun r => (r.setCarry (move b m.registers.carryBit).out).normalize
      (move b m.registers.carryBit).result
    write address (byte (move b m.registers.carryBit).result)) (read_flat h address)
  exact ⟨_, hshift.trans (rewrite_used address (hg _ _))⟩

theorem bump_used {amount : Int} (h : m.memory.Flat) (address : Int)
    (hg : ∀ b r, mnemonic.uses b r = r.normalize (b + amount)) :
    ∃ v : Byte, bump amount (some address) m = write address v (m.used mnemonic address) := by
  have hbump := bind_ok (f := fun b : Byte => do
    modifyRegisters (·.normalize (b + amount))
    write address (byte (b + amount))) (read_flat h address)
  exact ⟨_, hbump.trans (rewrite_used address (hg _ _))⟩

/-- An instruction that stores its result where it has read. -/
theorem execute_rewrites (h : m.memory.Flat) (hrewrites : mnemonic.rewrites = true)
    (address : Int) :
    ∃ v : Byte, mnemonic.execute (some address) m = write address v (m.used mnemonic address) := by
  cases mnemonic with
  | asl => exact shift_used (fun b _ => shiftLeft b 0) h address fun _ _ => rfl
  | lsr => exact shift_used (fun b _ => shiftRight b 0) h address fun _ _ => rfl
  | rol => exact shift_used shiftLeft h address fun _ _ => rfl
  | ror => exact shift_used shiftRight h address fun _ _ => rfl
  | inc => exact bump_used h address fun _ _ => rfl
  | dec => exact bump_used h address fun _ r => congrArg r.normalize (Int.sub_eq_add_neg ..)
  | _ => cases hrewrites

end Mnemonic

namespace Machine

variable {m : Machine} {i : Instruction} {s : Snapshot}

/-- A step that succeeds takes the operand of its instruction, does what the instruction does, and
tells of what is in the log by then. -/
theorem step_performs (h : m.memory.Flat) (hr : m.status = .running)
    (ht : m.table.get? (m.memory.cell m.memory.pc) = some i) (hs : outcome step m = .ok s) :
    ∃ d m₁ m₂, s.decoded = some d ∧ m.Deciphers i d ∧ Took m (1 + i.mode.operandLength) m₁ ∧
      i.mode.resolve m.primed = .ok d.address m₁ ∧
      i.mnemonic.execute d.address m₁ = .ok () m₂ ∧ s.accesses = m₂.memory.bus.log.toList ∧
      ∃ status, after step m = { m₂.cleared with status, steps := m₂.steps + 1 } := by
  obtain ⟨d, m₁, hstep, h₁, hd, hresolve⟩ := step_resolved h hr ht
  rw [outcome_eq_ok, hstep] at hs
  obtain ⟨m₃, he, hafter, rfl⟩ := execute_report_ok hs
  obtain ⟨m₂, hexecute, hm₃⟩ := execute_eq_ok he
  rw [hd.instruction] at hexecute
  refine ⟨d, m₁, m₂, rfl, hd, h₁, hresolve, hexecute, by rw [hm₃], m₃.status, ?_⟩
  rw [hafter, hm₃]
  rfl

/-- A snapshot of an instruction is one of a running processor that has found it in its table. -/
theorem found_of_decoded {d : Decoded} (h : m.memory.Flat) (hs : outcome step m = .ok s)
    (hd : s.decoded = some d) :
    m.status = .running ∧ m.table.get? (m.memory.cell m.memory.pc) = some d.instruction := by
  have hr : m.status = .running := by
    rw [outcome_eq_ok] at hs
    rcases step_ok hs with ⟨-, -, rfl⟩ | ⟨hrunning, -⟩
    · cases hd
    · exact running_iff.mp hrunning
  cases ht : m.table.get? (m.memory.cell m.memory.pc) with
  | none => simp [step_undefined h hr ht] at hs
  | some i =>
    obtain ⟨d', -, -, hd', hdeciphers, -⟩ := step_performs h hr ht hs
    cases hd.symm.trans hd'
    exact ⟨hr, by rw [hdeciphers.instruction]⟩

end Machine

end Micro6502
