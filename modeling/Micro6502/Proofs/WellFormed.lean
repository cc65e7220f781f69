import Micro6502.Proofs.Command
import Micro6502.Proofs.Operand

namespace Micro6502

def Registers.Exclusive (r : Registers) : Prop := ¬ (r.negative = true ∧ r.zero = true)

namespace Registers

theorem exclusive_fresh : Exclusive {} := by simp [Exclusive]

theorem exclusive_normalize (r : Registers) (n : Int) : (r.normalize n).Exclusive := by
  rintro ⟨hn, hz⟩
  simp only [normalize, decide_eq_true_eq] at hn hz
  rw [hz] at hn
  exact absurd hn (by decide)

theorem exclusive_set (r : Registers) (target : Register) (n : Int) :
    (r.set target n).Exclusive := by
  cases target <;> exact exclusive_normalize r n

theorem Exclusive.update {r r' : Registers} (h : r.Exclusive) (hr : r.Update r') :
    r'.Exclusive := by
  cases hr with
  | set target n => exact exclusive_set r target n
  | normalize n => exact exclusive_normalize r n
  | carry c => exact h

end Registers

/-- Initial values are written one after the other, so the flags are those of the last one. -/
theorem InitialState.exclusive_registers (entries : List (String × Int)) {r : Registers}
    (h : r.Exclusive) : (entries.foldl setNamed r).Exclusive := by
  induction entries generalizing r with
  | nil => exact h
  | cons entry rest ih =>
    apply ih
    unfold setNamed
    split
    · exact Registers.exclusive_set r _ _
    · exact h

namespace Machine

/-- Counter, pointer and flags are as wide as the processor has them. -/
structure Ranged (m : Machine) : Prop where
  pc : 0 ≤ m.memory.pc ∧ m.memory.pc ≤ 0xFFFF
  sp : 0 ≤ m.memory.sp ∧ m.memory.sp ≤ 0xFF
  flags : m.registers.Exclusive

structure WellFormed (m : Machine) : Prop extends Ranged m where
  flat : m.memory.Flat

namespace WellFormed

theorem word_range (n : Int) : 0 ≤ word n ∧ word n ≤ 0xFFFF := ⟨word_nonneg n, word_le n⟩

theorem byte_range (n : Int) : 0 ≤ n % 0x100 ∧ n % 0x100 ≤ 0xFF := by omega

variable {m m' : Machine}

theorem effect (h : m.WellFormed) (he : Effect m m') : m'.WellFormed := by
  refine ⟨?_, (he.steady h.flat).flat⟩
  cases he.change h.flat with
  | same => exact h.toRanged
  | fetched => exact ⟨word_range _, h.sp, h.flags⟩
  | pushed value => exact ⟨h.pc, byte_range _, h.flags⟩
  | pulled => exact ⟨h.pc, byte_range _, h.flags⟩
  | jumped address => exact ⟨word_range _, h.sp, h.flags⟩
  | pointed b =>
    have hb := b.toNat_lt
    have hsp : 0 ≤ (b : Int) ∧ (b : Int) ≤ 0xFF := by omega
    exact ⟨h.pc, hsp, h.flags⟩
  | updated r hr => exact ⟨h.pc, h.sp, h.flags.update hr⟩
  | _ => exact ⟨h.pc, h.sp, h.flags⟩

theorem restore (h : m.WellFormed) (i : InitialState) : (i.apply m).WellFormed :=
  ⟨⟨word_range _, byte_range _,
    InitialState.exclusive_registers i.registers Registers.exclusive_fresh⟩,
    h.flat.move _ _⟩

theorem reset (h : m.WellFormed) (ho : 0 ≤ m.memory.origin ∧ m.memory.origin ≤ 0xFFFF) :
    (after Machine.reset m).WellFormed :=
  ⟨⟨ho, byte_range 0xFF, Registers.exclusive_fresh⟩, h.flat.move _ _⟩

theorem load (h : m.WellFormed) (values : List Int) (start : Option Int) :
    (after (onMemory (Memory.load values start)) m).WellFormed := by
  rw [after_ok (onMemory_ok (Memory.load_flat h.flat values start)), Memory.loaded_eq]
  exact ⟨⟨h.pc, h.sp, h.flags⟩, h.flat.loaded _ values⟩

theorem press (h : m.WellFormed) (key : Int) : (Command.perform m (.press key)).WellFormed :=
  ⟨⟨h.pc, h.sp, h.flags⟩, h.flat⟩

end WellFormed

end Machine

theorem SystemConfig.wellFormed_build (c : SystemConfig) (console : Console) (random : Random)
    (table : OpcodeTable) : (c.build console random table).WellFormed :=
  ⟨⟨Machine.WellFormed.word_range _, Machine.WellFormed.byte_range _,
    InitialState.exclusive_registers c.initial.registers Registers.exclusive_fresh⟩,
    Bus.flat_blank⟩

namespace Machine

/-- A step of a well-formed machine tells of no effective address but a word. -/
theorem WellFormed.step_address {m m' : Machine} {s : Snapshot} (h : m.WellFormed)
    (hs : step m = .ok s m') : ∀ a ∈ s.address, 0 ≤ a ∧ a ≤ 0xFFFF := by
  rcases step_ok hs with ⟨-, -, rfl⟩ | ⟨-, opcode, m₁, d, m₂, m₃, hf, hdecode, -, hreport⟩
  · simp [Snapshot.address]
  · obtain ⟨i, address, m', -, hr, -, haddress⟩ := decode_ok hdecode
    have hcleared : m.cleared.WellFormed := h.effect .takeLog
    have hpc : m₁.WellFormed := after_ok hf ▸ hcleared.effect .fetch
    cases hreport
    change ∀ a ∈ d.address, _
    rw [haddress]
    exact Mode.resolve_range hpc.pc hr

/-- Looking at any address of a well-formed machine finds a byte. -/
theorem WellFormed.peek_byte {m : Machine} (h : m.WellFormed) (address : Int) :
    ∃ n, Bus.peek address m.memory.bus = .ok n m.memory.bus ∧ 0 ≤ n ∧ n ≤ 0xFF := by
  have := (m.memory.cell address).toNat_lt
  exact ⟨m.memory.cell address, Bus.peek_flat h.flat address, by omega, by omega⟩

/-- Every command keeps a machine well-formed; a reset takes the counter from the origin. -/
theorem WellFormed.perform {m : Machine} {origin : Int} (c : Command)
    (h : m.WellFormed ∧ m.memory.origin = origin)
    (horigin : c = .reset → 0 ≤ origin ∧ origin ≤ 0xFFFF) :
    (c.perform m).WellFormed ∧ (c.perform m).memory.origin = origin := by
  refine Command.keeps (I := fun m => m.WellFormed ∧ m.memory.origin = origin) ?_ h c
    ?_ ?_ ?_ ?_
  · intro m m' hm he
    exact ⟨hm.1.effect he, (he.steady hm.1.flat).origin.trans hm.2⟩
  · intro i _
    exact ⟨h.1.restore i, h.2⟩
  · intro hc
    exact ⟨h.1.reset (h.2 ▸ horigin hc), h.2⟩
  · intro values start _
    refine ⟨h.1.load values start, ?_⟩
    rw [after_ok (onMemory_ok (Memory.load_flat h.1.flat values start)), Memory.loaded_eq]
    exact h.2
  · intro key _
    exact ⟨h.1.press key, h.2⟩

end Machine

/-- Whatever a host does with a machine that was built from a configuration, counter, pointer,
registers and bytes keep their widths, N and Z are never both set, and no step tells of an effective
address but a word. Only a reset asks something of the configuration: it takes the counter from the
origin. -/
theorem SystemConfig.performAll_in_range (c : SystemConfig) (console : Console) (random : Random)
    (table : OpcodeTable) (commands : List Command)
    (horigin : .reset ∈ commands → 0 ≤ c.origin ∧ c.origin ≤ 0xFFFF) :
    let m := (c.build console random table).performAll commands
    (0 ≤ m.memory.pc ∧ m.memory.pc ≤ 0xFFFF) ∧
    (0 ≤ m.memory.sp ∧ m.memory.sp ≤ 0xFF) ∧
    (∀ r, 0 ≤ (m.registers.get r : Int) ∧ (m.registers.get r : Int) ≤ 0xFF) ∧
    (∀ address, ∃ n, Bus.peek address m.memory.bus = .ok n m.memory.bus ∧ 0 ≤ n ∧ n ≤ 0xFF) ∧
    ¬ (m.registers.negative = true ∧ m.registers.zero = true) ∧
    (∀ s m', Machine.step m = .ok s m' → ∀ a ∈ s.address, 0 ≤ a ∧ a ≤ 0xFFFF) := by
  intro m
  have h : m.WellFormed ∧ m.memory.origin = c.origin := by
    refine Command.performAll_keeps
      (I := fun m => m.WellFormed ∧ m.memory.origin = c.origin) ?_
      ⟨c.wellFormed_build console random table, rfl⟩
    intro m hm k hk
    exact Machine.WellFormed.perform k hm fun hreset => horigin (hreset ▸ hk)
  refine ⟨h.1.pc, h.1.sp, ?_, h.1.peek_byte, h.1.flags, fun s m' => h.1.step_address⟩
  intro r
  have := (m.registers.get r).toNat_lt
  omega

/-- The configuration that says nothing allows every command: its origin is a word. -/
theorem SystemConfig.performAll_in_range_standard :
    let commands : List Command :=
      [.restore { pc := -1, sp := 0x1FF, registers := [("X", 0x3FF)] },
        .load [0x9A, 0x48] (some (-1)), .step, .write 0x10600 0x1BA, .run 2, .reset,
        .setRegister "A" (-1), .step]
    let m := (({} : SystemConfig).build (.screen (SystemConfig.screen {})) ⟨fun _ => 7, 0⟩
      .standard).performAll commands
    (.reset ∈ commands ∧ 0 ≤ (0x0600 : Int) ∧ (0x0600 : Int) ≤ 0xFFFF) ∧
      0 ≤ m.memory.pc ∧ m.memory.pc ≤ 0xFFFF :=
  ⟨⟨by simp, by decide, by decide⟩,
    (SystemConfig.performAll_in_range {} _ _ _ _ fun _ => by decide).1⟩

end Micro6502
