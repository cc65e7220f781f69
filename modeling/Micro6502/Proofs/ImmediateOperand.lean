import Micro6502.Proofs.Boot
import Micro6502.Proofs.Disassembly
import Micro6502.Proofs.Reading
import Micro6502.Proofs.Subroutine

namespace Micro6502

namespace Machine

variable {m : Machine} {io : Io} {mnemonic : Mnemonic} {address : Int}

theorem used_unanswered (hio : m.io = some io) (h : Unanswered io.config address) :
    m.used mnemonic address =
      { m with
        memory := m.memory.noted address
        registers := mnemonic.uses (m.memory.cell address) m.registers } := by
  simp [used, asked, seen, hio, h.supply]

/-- The random source answers, and goes on to its next byte. -/
theorem used_random (hio : m.io = some io) (h : word address = io.config.randomAddress) :
    m.used mnemonic address =
      { m with
        io := some { io with random := io.random.next.2 }
        registers := mnemonic.uses io.random.next.1 m.registers } := by
  simp [used, asked, seen, hio, Io.supply, h]

theorem used_key (hio : m.io = some io) (hne : word address ≠ io.config.randomAddress)
    (h : word address = io.config.keypressAddress) :
    m.used mnemonic address =
      { m with
        io := some io
        registers := mnemonic.uses (byte io.console.key) m.registers } := by
  have hsupply : io.supply (word address) = some (byte io.console.key, io) := by
    rw [Io.supply, if_neg hne, if_pos h]
  simp [used, asked, seen, hio, hsupply]

end Machine

namespace Mode

open Machine

theorem resolve_immediate {m : Machine} (h : m.memory.Flat) :
    immediate.resolve m = .ok (some m.memory.pc) { m with memory := m.memory.fetched } := by
  change (fetch >>= fun _ => pure (some m.memory.pc)) m = _
  rw [bind_ok (fetch_flat h)]
  rfl

end Mode

/-- In the standard table every immediate instruction works on its operand and stores nothing. -/
theorem OpcodeTable.standard_immediate {opcode : Byte} {mnemonic : Mnemonic}
    (h : standard.get? opcode = some ⟨mnemonic, .immediate⟩) :
    mnemonic.readsOperand = true ∧ mnemonic.rewrites = false := by
  have hall : (standardEntries.all fun entry => entry.2.mode != .immediate ||
      (entry.2.mnemonic.readsOperand && !entry.2.mnemonic.rewrites)) = true := rfl
  simpa using List.all_eq_true.mp hall _ (mem_of_get?_ofList h)

namespace Machine

variable {m : Machine} {io : Io} {mnemonic : Mnemonic}

/-- A step of an immediate instruction uses what a read at its operand finds. -/
theorem step_immediate (h : m.memory.Flat) (he : m.Executes ⟨mnemonic, .immediate⟩)
    (hreads : mnemonic.readsOperand = true) (hkeeps : mnemonic.rewrites = false) :
    ∃ s d m₁, outcome step m = .ok s ∧ s.decoded = some d ∧
      m.Deciphers ⟨mnemonic, .immediate⟩ d ∧ d.address = some (word (m.memory.pc + 1)) ∧
      Took m 2 m₁ ∧ m₁.io = m.io ∧
      (after step m).registers = (m₁.used mnemonic (word (m.memory.pc + 1))).registers ∧
      (after step m).io = (m₁.used mnemonic (word (m.memory.pc + 1))).io := by
  obtain ⟨d, m₁, hstep, h₁, hd, hresolve⟩ := step_resolved h he.running he.found
  have hprimed := Mode.resolve_immediate (m.primed_took.flat h)
  obtain ⟨haddress, rfl⟩ := EStateM.Result.ok.inj (hprimed.symm.trans hresolve)
  have hbody := mnemonic.execute_used (h₁.flat h) hreads hkeeps (word (m.memory.pc + 1))
  have hbrk : mnemonic ≠ .brk := by
    rintro rfl
    cases hreads
  obtain ⟨s, hs, hdecoded⟩ := after_executes hstep hd.instruction hbrk (haddress ▸ hbody)
  rw [after_ok hs]
  exact ⟨s, d, _, outcome_ok hs, hdecoded, hd, haddress.symm, h₁, rfl, rfl, rfl⟩

/-- An instruction of the standard table in the immediate mode uses its operand byte, the one that
snapshot and listing show, where no peripheral answers; the random source is left alone. Where the
random source or the key answers, it uses what these supply. -/
theorem immediate_uses_operand (h : m.memory.Flat) (hio : m.io = some io)
    (htable : m.table = .standard) (he : m.Executes ⟨mnemonic, .immediate⟩) :
    let a := word (m.memory.pc + 1)
    let b := m.memory.cell a
    let m' := after step m
    (∃ s d, outcome step m = .ok s ∧ s.decoded = some d ∧
      d.instruction = ⟨mnemonic, .immediate⟩ ∧ d.operand = [b] ∧ d.address = some a ∧
      Listing.line m.table m.memory.pc m.memory =
        .ok ⟨m.memory.pc, [d.opcode, b], d.symbol⟩ m.memory) ∧
    (Unanswered io.config a →
      m'.registers = mnemonic.uses b m.registers ∧ m'.io = some io) ∧
    (a = io.config.randomAddress →
      m'.registers = mnemonic.uses io.random.next.1 m.registers ∧
      m'.io = some { io with random := io.random.next.2 }) ∧
    (a ≠ io.config.randomAddress → a = io.config.keypressAddress →
      m'.registers = mnemonic.uses (byte io.console.key) m.registers ∧ m'.io = some io) := by
  intro a b m'
  have hword : word a = a := word_word _
  obtain ⟨hreads, hkeeps⟩ := OpcodeTable.standard_immediate (htable ▸ he.found)
  obtain ⟨s, d, m₁, hs, hd, hdeciphers, haddress, h₁, hio₁, hregisters, hio'⟩ :=
    step_immediate h he hreads hkeeps
  have hoperand : d.operand = [b] := by
    rw [hdeciphers.operand]
    exact congrArg (fun b => [b]) (m.memory.cell_word (m.memory.pc + 1)).symm
  rw [hio] at hio₁
  refine ⟨⟨s, d, hs, hd, hdeciphers.instruction, hoperand, haddress, ?_⟩, fun hu => ?_,
    fun ha => ?_, fun hne ha => ?_⟩
  · rw [hdeciphers.line h he.found, hoperand]
  · rw [hregisters, hio', used_unanswered hio₁ hu]
    exact ⟨by rw [h₁.cell, h₁.registers], hio₁⟩
  · rw [hregisters, hio', used_random hio₁ (hword.trans ha)]
    exact ⟨by rw [h₁.registers], rfl⟩
  · rw [hregisters, hio', used_key hio₁ (hword.trans_ne hne) (hword.trans ha)]
    exact ⟨by rw [h₁.registers], rfl⟩

/-- A program in plain memory loads the constant that it names. -/
theorem immediate_uses_operand_plain :
    let m := ({} : SystemConfig).boot ⟨fun _ => 7, 0⟩ [0xA9, 0x05, 0x00]
    m.memory.Flat ∧ m.Executes ⟨.lda, .immediate⟩ ∧ (after step m).registers.a = 5 ∧
      (after step m).io = m.io := by
  intro m
  have hm : ({} : SystemConfig).Boots _ _ m := SystemConfig.boot_boots {} _ (by decide)
  clear_value m
  have hentry : OpcodeTable.standard.get? (byte 0xA9) = some ⟨.lda, .immediate⟩ := by
    decide +kernel
  have he : m.Executes ⟨.lda, .immediate⟩ := ⟨hm.status, hm.found (by decide) hentry⟩
  have hplace : word (m.memory.pc + 1) = 0x0601 := by
    rw [hm.pc]
    rfl
  have hoperand : m.memory.cell 0x0601 = 5 := hm.cell ⟨1, by decide⟩
  obtain ⟨-, hplain, -⟩ := immediate_uses_operand hm.equips.flat hm.io hm.table he
  rw [hplace, hoperand] at hplain
  obtain ⟨hregisters, hio⟩ := hplain (by unfold Unanswered; decide)
  exact ⟨hm.equips.flat, he, by rw [hregisters]; rfl, by rw [hio, hm.io]⟩

/-- Where the constant lies at the address of the random source, a random byte is loaded instead. -/
theorem immediate_answered :
    let c : SystemConfig := { origin := 0xFD, initial := { pc := 0xFD } }
    let m := c.boot ⟨fun _ => 7, 0⟩ [0xA9, 0x05]
    m.Executes ⟨.lda, .immediate⟩ ∧
      (∃ s d, outcome step m = .ok s ∧ s.decoded = some d ∧ d.operand = [5]) ∧
      (after step m).registers.a = 7 ∧ (after step m).io.map (·.random.taken) = some 1 := by
  intro c m
  have hm : c.Boots _ _ m := SystemConfig.boot_boots c _ (by decide)
  clear_value m
  have hentry : OpcodeTable.standard.get? (byte 0xA9) = some ⟨.lda, .immediate⟩ := by
    decide +kernel
  have he : m.Executes ⟨.lda, .immediate⟩ := ⟨hm.status, hm.found (by decide) hentry⟩
  have hplace : word (m.memory.pc + 1) = 0xFE := by
    rw [hm.pc]
    rfl
  have hoperand : m.memory.cell (m.memory.pc + 1) = 5 := by
    rw [← m.memory.cell_word, hplace]
    exact hm.cell ⟨1, by decide⟩
  obtain ⟨s, d, m₁, hs, hd, hdeciphers, -, h₁, hio, hregisters, hio'⟩ :=
    step_immediate hm.equips.flat he rfl rfl
  rw [hplace, used_random (hio.trans hm.io) rfl] at hregisters hio'
  refine ⟨he, ⟨s, d, hs, hd, ?_⟩, ?_, ?_⟩
  · rw [hdeciphers.operand, ← hoperand]
    rfl
  · rw [hregisters]
    rfl
  · rw [hio']
    rfl

end Machine

end Micro6502
