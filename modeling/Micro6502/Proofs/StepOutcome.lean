import Micro6502.Proofs.Command
import Micro6502.Proofs.Configuration
import Micro6502.Proofs.Operand

namespace Micro6502

/-- Whether an instruction uses its effective address; a branch does if it is taken. -/
def Mnemonic.needsAddress (r : Registers) : Mnemonic → Bool
  | lda | ldx | ldy | sta | stx | sty => true
  | adc | sbc | cmp | cpx | cpy | and | ora | eor | bit => true
  | inc | dec | jmp | jsr => true
  | bcc => !r.flag .c
  | bcs => r.flag .c
  | beq => r.flag .z
  | bne => !r.flag .z
  | bmi => r.flag .n
  | bpl => !r.flag .n
  | _ => false

/-- An instruction that uses its effective address, in the mode that has none. -/
def Instruction.strands (i : Instruction) (r : Registers) : Bool :=
  i.mode = .implicit && i.mnemonic.needsAddress r

namespace Machine

variable {α : Type} {m : Machine}

/-- An action that succeeds on every sound machine and leaves it sound. -/
def Safe (act : MachineM α) : Prop := Keeps Sound (fun _ => False) α act

theorem Safe.succeeds {act : MachineM α} (h : Safe act) (hm : m.Sound) :
    ∃ a m', act m = .ok a m' := by
  have hm' := h m hm
  cases hact : act m with
  | ok a m' => exact ⟨a, m', rfl⟩
  | error e m' =>
    rw [hact] at hm'
    exact hm'.elim

theorem safe_compositional : Compositional (fun _ => True) @Safe := by
  refine Keeps.compositional (fun _ _ => Sound.effect) (fun _ h => h.flat) fun address value => ?_
  exact Keeps.effect (fun _ _ => Sound.effect) fun m h => ⟨_, _, write_sound h address value,
    after_ok (write_sound h address value) ▸ .write address value⟩

/-- With an effective address every instruction succeeds. -/
theorem safe_execute (mnemonic : Mnemonic) (address : Int) :
    Safe (mnemonic.execute (some address)) :=
  safe_compositional.execute mnemonic (fun _ _ => trivial) (by simp)

end Machine

namespace Mnemonic

open Machine

variable {m : Machine} {flag : Flag} {wanted : Bool}

theorem branch_taken (h : m.registers.flag flag = wanted) (e : Option Int) :
    branch flag wanted e m = jump e m := by
  change (if m.registers.flag flag = wanted then jump e else pure () : MachineM Unit) m = _
  rw [if_pos h]

theorem branch_not_taken (h : m.registers.flag flag ≠ wanted) (e : Option Int) :
    branch flag wanted e m = .ok () m := by
  change (if m.registers.flag flag = wanted then jump e else pure () : MachineM Unit) m = _
  rw [if_neg h]
  rfl

/-- Without an effective address an instruction that uses it fails. -/
theorem execute_none_error {mnemonic : Mnemonic} (h : m.Sound)
    (hn : mnemonic.needsAddress m.registers = true) :
    ∃ mapped m', mnemonic.execute none m = .error (.noAddress mapped) m' := by
  cases mnemonic with
  | lda | ldx | ldy | sta | stx | sty => exact ⟨_, _, rfl⟩
  | adc | sbc | cmp | cpx | cpy | and | ora | eor | bit | inc | dec => exact ⟨_, _, rfl⟩
  | bcc | bcs | beq | bne | bmi | bpl =>
    refine ⟨false, m, ?_⟩
    rw [execute, branch_taken (by simpa [needsAddress] using hn)]
    rfl
  | jmp => exact ⟨_, _, rfl⟩
  | jsr =>
    -- the counter is on the stack by the time the jump fails
    obtain ⟨_, m', hp⟩ := Safe.succeeds safe_compositional.pushPc h
    exact ⟨false, m', bind_ok hp⟩
  | _ => simp [needsAddress] at hn

/-- Without an effective address an instruction that does not use it succeeds. -/
theorem execute_none_ok {mnemonic : Mnemonic} (h : m.Sound)
    (hn : mnemonic.needsAddress m.registers = false) :
    ∃ m', mnemonic.execute none m = .ok () m' := by
  have hsafe {act : MachineM Unit} (ha : Safe act) : ∃ m', act m = .ok () m' := by
    obtain ⟨_, m', he⟩ := ha.succeeds h
    exact ⟨m', he⟩
  cases mnemonic with
  | asl => exact hsafe (safe_compositional.shift (e := none) (fun b _ => shiftLeft b 0) (by simp))
  | lsr => exact hsafe (safe_compositional.shift (e := none) (fun b _ => shiftRight b 0) (by simp))
  | rol => exact hsafe (safe_compositional.shift (e := none) shiftLeft (by simp))
  | ror => exact hsafe (safe_compositional.shift (e := none) shiftRight (by simp))
  | bcc | bcs | beq | bne | bmi | bpl =>
    exact ⟨m, branch_not_taken (by simpa [needsAddress] using hn) none⟩
  -- the others do not look at their address, so any will do
  | tax => exact hsafe (safe_execute .tax 0)
  | tay => exact hsafe (safe_execute .tay 0)
  | txa => exact hsafe (safe_execute .txa 0)
  | tya => exact hsafe (safe_execute .tya 0)
  | tsx => exact hsafe (safe_execute .tsx 0)
  | txs => exact hsafe (safe_execute .txs 0)
  | inx | dex | iny | dey => exact hsafe (safe_compositional.count _ _)
  | rts => exact hsafe safe_compositional.ret
  | pha => exact hsafe (safe_execute .pha 0)
  | pla => exact hsafe (safe_execute .pla 0)
  | clc | sec => exact ⟨_, rfl⟩
  | nop | brk => exact ⟨_, rfl⟩
  | _ => simp [needsAddress] at hn

end Mnemonic

namespace Machine

variable {m : Machine} {d : Decoded}

/-- A decoded instruction fails if it uses the address that it does not have, and only then. -/
theorem execute_error (h : m.Sound) (ha : d.address = none ↔ d.instruction.mode = .implicit)
    (hs : d.instruction.strands m.registers = true) :
    ∃ mapped m', execute d m = .error (.noAddress mapped) m' := by
  simp only [Instruction.strands, Bool.and_eq_true, decide_eq_true_eq] at hs
  obtain ⟨mapped, m', he⟩ := Mnemonic.execute_none_error h hs.2
  rw [← ha.mpr hs.1] at he
  exact ⟨mapped, m', bind_error he⟩

theorem execute_ok (h : m.Sound) (ha : d.address = none ↔ d.instruction.mode = .implicit)
    (hs : d.instruction.strands m.registers = false) : ∃ m', execute d m = .ok () m' := by
  have he : ∃ m', d.instruction.mnemonic.execute d.address m = .ok () m' := by
    cases hd : d.address with
    | some address =>
      obtain ⟨_, m', he⟩ := (safe_execute d.instruction.mnemonic address).succeeds h
      exact ⟨m', he⟩
    | none =>
      have hn : d.instruction.mnemonic.needsAddress m.registers = false := by
        simpa [Instruction.strands, ha.mp hd] using hs
      exact Mnemonic.execute_none_ok h hn
  obtain ⟨m₁, he⟩ := he
  by_cases hb : d.instruction.mnemonic = .brk
  · refine ⟨{ m₁ with status := .finished }, ?_⟩
    rw [execute, bind_ok he, if_pos hb]
    rfl
  · refine ⟨m₁, ?_⟩
    rw [execute, bind_ok he, if_neg hb]
    rfl

theorem step_strands {i : Instruction} (h : m.Sound) (hr : m.status = .running)
    (ht : m.table.get? (m.memory.cell m.memory.pc) = some i)
    (hs : i.strands m.registers = true) :
    ∃ mapped, outcome step m = .error (.noAddress mapped) := by
  obtain ⟨d, m₁, hstep, h₁, hd⟩ := step_defined h.flat hr ht
  obtain ⟨mapped, m₂, he⟩ := execute_error (h₁.sound h) (hd.instruction ▸ hd.address)
    (hd.instruction ▸ h₁.registers ▸ hs)
  exact ⟨mapped, outcome_error (hstep.trans (bind_error he))⟩

theorem step_returns {i : Instruction} (h : m.Sound) (hr : m.status = .running)
    (ht : m.table.get? (m.memory.cell m.memory.pc) = some i)
    (hs : i.strands m.registers = false) : ∃ s, outcome step m = .ok s := by
  obtain ⟨d, m₁, hstep, h₁, hd⟩ := step_defined h.flat hr ht
  obtain ⟨m₂, he⟩ := execute_ok (h₁.sound h) (hd.instruction ▸ hd.address)
    (hd.instruction ▸ h₁.registers ▸ hs)
  exact ⟨_, outcome_ok (hstep.trans ((bind_ok he).trans (report_eq d m₂)))⟩

end Machine

namespace OpcodeTable

/-- A table says of a byte nothing but what one of its entries says. -/
theorem mem_of_get?_ofList {entries : List (Byte × Instruction)} {opcode : Byte} {i : Instruction}
    (h : (ofList entries).get? opcode = some i) : (opcode, i) ∈ entries := by
  have hfold : ∀ t : OpcodeTable,
      (entries.foldl (fun t entry => t.insert entry.1 entry.2) t).get? opcode = some i →
        (opcode, i) ∈ entries ∨ t.get? opcode = some i := by
    clear h
    induction entries with
    | nil => exact fun t ht => .inr ht
    | cons entry rest ih =>
      intro t ht
      rcases ih (t.insert entry.1 entry.2) ht with hrest | hinsert
      · exact .inl (.tail _ hrest)
      · rw [get?_insert] at hinsert
        split at hinsert
        · rename_i ho
          cases hinsert
          exact .inl (ho ▸ .head _)
        · exact .inr hinsert
  exact (hfold empty h).resolve_right (by simp)

/-- In the standard table no instruction uses an address that it does not have. -/
theorem standard_strands {opcode : Byte} {i : Instruction}
    (h : standard.get? opcode = some i) (r : Registers) : i.strands r = false := by
  have hall : (standardEntries.all fun entry => !entry.2.strands r) = true := rfl
  simpa using List.all_eq_true.mp hall _ (mem_of_get?_ofList h)

end OpcodeTable

namespace Machine

variable {m : Machine}

/-- With the standard table a step fails in one way only. -/
theorem step_standard {e : Fault} (h : m.Sound) (ht : m.table = .standard)
    (he : outcome step m = .error e) :
    e = .unknownOpcode (m.memory.cell m.memory.pc) m.memory.pc := by
  cases hr : m.isHalted with
  | true => simp [outcome_ok (step_halted hr)] at he
  | false =>
    have hr := running_iff.mp hr
    cases hi : m.table.get? (m.memory.cell m.memory.pc) with
    | none =>
      rw [step_undefined h.flat hr hi] at he
      cases he
      rfl
    | some i =>
      obtain ⟨s, hs⟩ := step_returns h hr hi (OpcodeTable.standard_strands (ht ▸ hi) _)
      simp [hs] at he

/-- No command makes an access fail, or changes the table. -/
theorem Sound.perform {table : OpcodeTable} (c : Command) (h : m.Sound ∧ m.table = table) :
    (c.perform m).Sound ∧ (c.perform m).table = table := by
  refine Command.keeps (I := fun m => m.Sound ∧ m.table = table) ?_ h c ?_ ?_ ?_ ?_
  · intro m m' hm he
    exact ⟨hm.1.effect he, (he.steady hm.1.flat).table.trans hm.2⟩
  · intro i _
    exact ⟨⟨h.1.flat.move _ _, h.1.columns⟩, h.2⟩
  · intro _
    exact ⟨⟨h.1.flat.move _ _, h.1.columns⟩, h.2⟩
  · intro values start _
    rw [after_ok (onMemory_ok (Memory.load_flat h.1.flat values start))]
    exact ⟨⟨h.1.flat.loaded _ values, h.1.columns⟩, h.2⟩
  · intro key _
    rw [Command.perform_press]
    exact ⟨⟨h.1.flat, fun c hc => h.1.columns c (by simpa using hc)⟩, h.2⟩

end Machine

namespace SystemConfig

/-- A machine as the configuration describes it, in any state in which it runs: flat memory with any
bytes, and a screen at the configured places with any pixels, key and random source. -/
structure Describes (c : SystemConfig) (m : Machine) : Prop where
  flat : m.memory.Flat
  peripherals : ∃ io screen, m.io = some io ∧ io.config = c.io ∧ io.console = .screen screen
  running : m.status = .running

variable {entries : List (Data × Data)} {base : Option String} {c : SystemConfig}

theorem Describes.sound_of_width {m : Machine} (h : c.Describes m) (hw : c.io.screenWidth ≠ 0) :
    m.Sound := by
  refine ⟨h.flat, ?_⟩
  obtain ⟨io, screen, hio, hconfig, -⟩ := h.peripherals
  have hwidth : io.config.screenWidth ≠ 0 := by rwa [hconfig]
  rw [hio]
  rintro _ ⟨⟩
  exact hwidth

theorem Describes.sound {m : Machine} (h : c.Describes m) (hc : parse entries base = .ok c) :
    m.Sound :=
  h.sound_of_width (Int.ne_of_gt (parse_screen hc).2)

theorem build_describes (c : SystemConfig) (screen : Screen) (random : Random)
    (table : OpcodeTable) : c.Describes (c.build (.screen screen) random table) :=
  ⟨Bus.flat_blank, ⟨_, screen, rfl, rfl, rfl⟩, rfl⟩

/-- How a step of a configured machine ends. It fails on the byte at the counter if and only if
that is no opcode, and on a missing address if and only if the table gives that byte an instruction
that uses one in the mode without; else it gives a snapshot. With the standard table nothing that a
host does leads to a step that fails otherwise than on a byte that is no opcode. -/
theorem step_outcome (hc : parse entries base = .ok c) :
    (∀ m, c.Describes m →
      let opcode := m.memory.cell m.memory.pc
      (outcome Machine.step m = .error (.unknownOpcode opcode m.memory.pc) ↔
        m.table.get? opcode = none) ∧
      ((∃ e, outcome Machine.step m = .error e ∧ e.kind = .type) ↔
        ∃ i, m.table.get? opcode = some i ∧ i.strands m.registers = true) ∧
      ((∃ s, outcome Machine.step m = .ok s) ↔
        ∃ i, m.table.get? opcode = some i ∧ i.strands m.registers = false) ∧
      (∀ e, outcome Machine.step m = .error e →
        e = .unknownOpcode opcode m.memory.pc ∨ e.kind = .type)) ∧
    (∀ screen random commands e,
      outcome Machine.step
        ((c.build (.screen screen) random .standard).performAll commands) = .error e →
      e.kind = .decode) := by
  constructor
  · intro m hm opcode
    have hs := hm.sound hc
    cases hi : m.table.get? opcode with
    | none =>
      have ho := Machine.step_undefined hs.flat hm.running hi
      simp [ho, opcode, Fault.kind]
    | some i =>
      cases ht : i.strands m.registers with
      | true =>
        obtain ⟨mapped, ho⟩ := Machine.step_strands hs hm.running hi ht
        simp [ho, ht, Fault.kind]
      | false =>
        obtain ⟨s, ho⟩ := Machine.step_returns hs hm.running hi ht
        simp [ho, ht]
  · intro screen random commands e he
    have hbuild : (c.build (.screen screen) random .standard).Sound :=
      (build_describes c screen random .standard).sound hc
    obtain ⟨hs, ht⟩ := Command.performAll_keeps (I := fun m => m.Sound ∧ m.table = .standard)
      (fun m hm k (_ : k ∈ commands) => Machine.Sound.perform k hm) ⟨hbuild, rfl⟩
    rw [Machine.step_standard hs ht he]
    rfl

/-- The first step on blank memory, under a table that gives the byte zero a load without an address
and under one that gives it nothing. -/
theorem step_outcome_stranded :
    let m (table : OpcodeTable) :=
      ({} : SystemConfig).build (.screen (screen {})) ⟨fun _ => 0, 0⟩ table
    parse [] none = .ok {} ∧ (∀ table, ({} : SystemConfig).Describes (m table)) ∧
      (∃ e, outcome Machine.step (m (.ofList [(0x00, ⟨.lda, .implicit⟩)])) = .error e ∧
        e.kind = .type) ∧
      outcome Machine.step (m .empty) = .error (.unknownOpcode 0x00 0x0600) := by
  intro m
  have hc : parse [] none = .ok {} := rfl
  have hm (table : OpcodeTable) : ({} : SystemConfig).Describes (m table) :=
    build_describes {} _ _ table
  have hcell (table : OpcodeTable) : (m table).memory.cell (m table).memory.pc = 0x00 :=
    Bus.cell_blank _
  obtain ⟨-, hstrands, -, -⟩ := (step_outcome hc).1 (m (.ofList [(0x00, ⟨.lda, .implicit⟩)])) (hm _)
  obtain ⟨hunknown, -, -, -⟩ := (step_outcome hc).1 (m .empty) (hm _)
  rw [hcell] at hstrands hunknown
  exact ⟨hc, hm, hstrands.mpr ⟨⟨.lda, .implicit⟩, rfl, rfl⟩, hunknown.mpr rfl⟩

end SystemConfig

end Micro6502
