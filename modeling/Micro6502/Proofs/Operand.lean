import Mathlib.Data.List.Basic
import Micro6502.Proofs.Cycle
import Micro6502.Proofs.Sound

namespace Micro6502

namespace Machine

/-- From `m` to `m'` the counter moves by `count`; besides, at most the log and the random source
change. -/
structure Took (m : Machine) (count : Nat) (m' : Machine) : Prop where
  mappings : m'.memory.bus.mappings = m.memory.bus.mappings
  origin : m'.memory.origin = m.memory.origin
  pc : m'.memory.pc = word (m.memory.pc + count)
  sp : m'.memory.sp = m.memory.sp
  config : m'.io.map (·.config) = m.io.map (·.config)
  console : m'.io.map (·.console) = m.io.map (·.console)
  registers : m'.registers = m.registers
  table : m'.table = m.table
  status : m'.status = m.status
  steps : m'.steps = m.steps

variable {m m₁ m₂ : Machine} {j k : Nat}

namespace Took

theorem trans (h : Took m j m₁) (h' : Took m₁ k m₂) : Took m (j + k) m₂ where
  mappings := h'.mappings.trans h.mappings
  origin := h'.origin.trans h.origin
  pc := by
    rw [h'.pc, h.pc]
    unfold word
    omega
  sp := h'.sp.trans h.sp
  config := h'.config.trans h.config
  console := h'.console.trans h.console
  registers := h'.registers.trans h.registers
  table := h'.table.trans h.table
  status := h'.status.trans h.status
  steps := h'.steps.trans h.steps

theorem flat (h : Took m k m₁) (hf : m.memory.Flat) : m₁.memory.Flat := by
  obtain ⟨r, hr, hm⟩ := hf
  exact ⟨r, hr, h.mappings.trans hm⟩

theorem sound (h : Took m k m₁) (hs : m.Sound) : m₁.Sound :=
  ⟨h.flat hs.flat, fun c hc => hs.columns c (h.config ▸ hc)⟩

theorem pc_word (h : Took m k m₁) : word m₁.memory.pc = m₁.memory.pc := by
  rw [h.pc, word_word]

theorem cell (h : Took m k m₁) (address : Int) :
    m₁.memory.cell address = m.memory.cell address := by
  have hm := h.mappings
  obtain ⟨⟨⟨mappings, log⟩, _⟩, _⟩ := m
  obtain ⟨⟨⟨mappings', log'⟩, _⟩, _⟩ := m₁
  cases hm
  exact Bus.cell_log mappings log' log address

end Took

theorem fetch_took (h : m.memory.Flat) :
    ∃ m', Mode.fetch m = .ok (m.memory.cell m.memory.pc) m' ∧ Took m 1 m' :=
  ⟨_, fetch_flat h, rfl, rfl, rfl, rfl, rfl, rfl, rfl, rfl, rfl, rfl⟩

theorem read_took (h : m.memory.Flat) (hpc : word m.memory.pc = m.memory.pc) (address : Int) :
    ∃ m', read address m = .ok (m.seen address) m' ∧ Took m 0 m' := by
  refine ⟨_, read_flat h address, ?_⟩
  have hpc' : m.memory.pc = word (m.memory.pc + (0 : Nat)) := by simpa using hpc.symm
  rcases m.asked_cases address with ⟨io, random, hio, he⟩ | he
  · rw [he]
    exact ⟨rfl, rfl, hpc', rfl, by simp [hio], by simp [hio], rfl, rfl, rfl, rfl⟩
  · rw [he]
    exact ⟨rfl, rfl, hpc', rfl, rfl, rfl, rfl, rfl, rfl, rfl⟩

end Machine

namespace Mode

open Machine

variable {m : Machine}

theorem fetchWord_took (h : m.memory.Flat) :
    ∃ m', fetchWord m =
        .ok (wordOf (m.memory.cell m.memory.pc) (m.memory.cell (m.memory.pc + 1))) m' ∧
      Took m 2 m' := by
  obtain ⟨m₁, hlo, h₁⟩ := fetch_took h
  obtain ⟨m₂, hhi, h₂⟩ := fetch_took (h₁.flat h)
  have hnext : m₁.memory.cell m₁.memory.pc = m.memory.cell (m.memory.pc + 1) := by
    rw [h₁.cell, h₁.pc, Memory.cell_word]
    rfl
  exact ⟨m₂, by rw [fetchWord, bind_ok hlo, bind_ok hhi, hnext]; rfl, h₁.trans h₂⟩

theorem readWord_took (h : m.memory.Flat) (hpc : word m.memory.pc = m.memory.pc) (lo hi : Int) :
    ∃ n m', readWord lo hi m = .ok n m' ∧ Took m 0 m' := by
  obtain ⟨m₁, hlo, h₁⟩ := read_took h hpc lo
  obtain ⟨m₂, hhi, h₂⟩ := read_took (h₁.flat h) h₁.pc_word hi
  exact ⟨_, m₂, by rw [readWord, bind_ok hlo, bind_ok hhi]; rfl, h₁.trans h₂⟩

theorem zeroPageIndexed_took (h : m.memory.Flat) (index : Register) :
    ∃ n m', zeroPageIndexed index m = .ok n m' ∧ Took m 1 m' := by
  obtain ⟨m₁, hf, h₁⟩ := fetch_took h
  exact ⟨_, m₁, by rw [zeroPageIndexed, bind_ok hf]; rfl, h₁⟩

theorem absoluteIndexed_took (h : m.memory.Flat) (index : Register) :
    ∃ n m', absoluteIndexed index m = .ok n m' ∧ Took m 2 m' := by
  obtain ⟨m₁, hf, h₁⟩ := fetchWord_took h
  exact ⟨_, m₁, by rw [absoluteIndexed, bind_ok hf]; rfl, h₁⟩

/-- Every operand can be taken, and every mode but the implicit one gives an address. -/
theorem resolve_took (mode : Mode) (h : m.memory.Flat) (hpc : word m.memory.pc = m.memory.pc) :
    ∃ e m', mode.resolve m = .ok e m' ∧ Took m mode.operandLength m' ∧
      (e = none ↔ mode = .implicit) := by
  cases mode with
  | implicit =>
    exact ⟨none, m, rfl, ⟨rfl, rfl, by simpa [operandLength] using hpc.symm,
      rfl, rfl, rfl, rfl, rfl, rfl, rfl⟩, by simp⟩
  | relative | zeroPage =>
    obtain ⟨m₁, hf, h₁⟩ := fetch_took h
    exact ⟨some _, m₁, by rw [resolve, bind_ok hf]; rfl, h₁, by simp⟩
  | immediate =>
    obtain ⟨m₁, hf, h₁⟩ := fetch_took h
    refine ⟨some m.memory.pc, m₁, ?_, h₁, by simp⟩
    change (fetch >>= fun _ => pure (some m.memory.pc)) m = _
    rw [bind_ok hf]
    rfl
  | zeroPageX =>
    obtain ⟨n, m₁, hf, h₁⟩ := zeroPageIndexed_took h .x
    exact ⟨some n, m₁, by rw [resolve, bind_ok hf]; rfl, h₁, by simp⟩
  | zeroPageY =>
    obtain ⟨n, m₁, hf, h₁⟩ := zeroPageIndexed_took h .y
    exact ⟨some n, m₁, by rw [resolve, bind_ok hf]; rfl, h₁, by simp⟩
  | absolute =>
    obtain ⟨m₁, hf, h₁⟩ := fetchWord_took h
    exact ⟨some _, m₁, by rw [resolve, bind_ok hf]; rfl, h₁, by simp⟩
  | absoluteX =>
    obtain ⟨n, m₁, hf, h₁⟩ := absoluteIndexed_took h .x
    exact ⟨some n, m₁, by rw [resolve, bind_ok hf]; rfl, h₁, by simp⟩
  | absoluteY =>
    obtain ⟨n, m₁, hf, h₁⟩ := absoluteIndexed_took h .y
    exact ⟨some n, m₁, by rw [resolve, bind_ok hf]; rfl, h₁, by simp⟩
  | indirect =>
    obtain ⟨m₁, hf, h₁⟩ := fetchWord_took h
    obtain ⟨n, m₂, hr, h₂⟩ := readWord_took (h₁.flat h) h₁.pc_word
      (wordOf (m.memory.cell m.memory.pc) (m.memory.cell (m.memory.pc + 1))) (nextInPage _)
    exact ⟨some n, m₂, by rw [resolve, bind_ok hf, bind_ok hr]; rfl, h₁.trans h₂, by simp⟩
  | indexedIndirect =>
    obtain ⟨pointer, m₁, hf, h₁⟩ := zeroPageIndexed_took h .x
    obtain ⟨n, m₂, hr, h₂⟩ :=
      readWord_took (h₁.flat h) h₁.pc_word pointer ((pointer + 1) % 0x100)
    exact ⟨some n, m₂, by rw [resolve, bind_ok hf, bind_ok hr]; rfl, h₁.trans h₂, by simp⟩
  | indirectIndexed =>
    obtain ⟨m₁, hf, h₁⟩ := fetch_took h
    obtain ⟨n, m₂, hr, h₂⟩ := readWord_took (h₁.flat h) h₁.pc_word
      (m.memory.cell m.memory.pc) (((m.memory.cell m.memory.pc : Int) + 1) % 0x100)
    have hf' : (do return ((← fetch) : Int) : MachineM Int) m =
        .ok (m.memory.cell m.memory.pc : Int) m₁ := bind_ok hf
    refine ⟨some (word (n + m₂.registers.get .y)), m₂, ?_, h₁.trans h₂, by simp⟩
    rw [resolve, bind_ok hf', bind_ok hr]
    rfl

/-- As many bytes as the mode takes can be written as assembly text. -/
theorem format_ok (mode : Mode) {operand : List Int} (h : operand.length = mode.operandLength)
    (next : Int) : ∃ text, mode.format operand next = .ok text := by
  cases mode with
  | implicit => exact ⟨_, rfl⟩
  | relative | immediate | zeroPage | zeroPageX | zeroPageY | indexedIndirect | indirectIndexed =>
    obtain ⟨b, rfl⟩ := List.length_eq_one_iff.mp h
    exact ⟨_, rfl⟩
  | absolute | absoluteX | absoluteY | indirect =>
    obtain ⟨lo, hi, rfl⟩ := List.length_eq_two.mp h
    exact ⟨_, rfl⟩

/-- The counter has passed over as many bytes as the mode takes, also around the end of memory. -/
theorem passed_eq (mode : Mode) (pc : Int) :
    (word (word (pc + mode.operandLength) - pc)).toNat = mode.operandLength := by
  have h : mode.operandLength ≤ 2 := by cases mode <;> decide
  unfold word
  omega

theorem wordOf_range (lo hi : Int) : 0 ≤ wordOf lo hi ∧ wordOf lo hi ≤ 0xFFFF := by
  unfold wordOf
  omega

theorem zeroPageIndexed_range {m m' : Machine} {index : Register} {n : Int}
    (h : zeroPageIndexed index m = .ok n m') : 0 ≤ n ∧ n ≤ 0xFFFF := by
  obtain ⟨b, _, _, h⟩ := bind_eq_ok.mp h
  cases h
  omega

theorem readWord_range {m m' : Machine} {lo hi n : Int}
    (h : readWord lo hi m = .ok n m') : 0 ≤ n ∧ n ≤ 0xFFFF := by
  obtain ⟨l, _, _, h⟩ := bind_eq_ok.mp h
  obtain ⟨u, _, _, h⟩ := bind_eq_ok.mp h
  cases h
  exact wordOf_range _ _

theorem fetchWord_range {m m' : Machine} {n : Int}
    (h : fetchWord m = .ok n m') : 0 ≤ n ∧ n ≤ 0xFFFF := by
  obtain ⟨l, _, _, h⟩ := bind_eq_ok.mp h
  obtain ⟨u, _, _, h⟩ := bind_eq_ok.mp h
  cases h
  exact wordOf_range _ _

theorem absoluteIndexed_range {m m' : Machine} {index : Register} {n : Int}
    (h : absoluteIndexed index m = .ok n m') : 0 ≤ n ∧ n ≤ 0xFFFF := by
  obtain ⟨w, _, _, h⟩ := bind_eq_ok.mp h
  cases h
  exact ⟨word_nonneg _, word_le _⟩

/-- An effective address is a word. The immediate mode has the counter itself for an address, so it
needs that to be one. -/
theorem resolve_range {mode : Mode} {m m' : Machine} {e : Option Int}
    (hpc : 0 ≤ m.memory.pc ∧ m.memory.pc ≤ 0xFFFF) (h : mode.resolve m = .ok e m') :
    ∀ a ∈ e, 0 ≤ a ∧ a ≤ 0xFFFF := by
  cases mode with
  | implicit =>
    cases h
    simp
  | relative =>
    obtain ⟨b, _, _, h⟩ := bind_eq_ok.mp h
    cases h
    rintro _ ⟨⟩
    exact ⟨word_nonneg _, word_le _⟩
  | immediate =>
    obtain ⟨_, _, hg, h⟩ := bind_eq_ok.mp h
    obtain ⟨b, _, _, h⟩ := bind_eq_ok.mp h
    cases h
    cases hg
    rintro _ ⟨⟩
    exact hpc
  | zeroPage =>
    obtain ⟨b, _, _, h⟩ := bind_eq_ok.mp h
    cases h
    rintro _ ⟨⟩
    have := b.toNat_lt
    omega
  | zeroPageX | zeroPageY =>
    obtain ⟨n, _, hn, h⟩ := bind_eq_ok.mp h
    cases h
    rintro _ ⟨⟩
    exact zeroPageIndexed_range hn
  | absolute =>
    obtain ⟨n, _, hn, h⟩ := bind_eq_ok.mp h
    cases h
    rintro _ ⟨⟩
    exact fetchWord_range hn
  | absoluteX | absoluteY =>
    obtain ⟨n, _, hn, h⟩ := bind_eq_ok.mp h
    cases h
    rintro _ ⟨⟩
    exact absoluteIndexed_range hn
  | indirect | indexedIndirect =>
    obtain ⟨pointer, _, _, h⟩ := bind_eq_ok.mp h
    obtain ⟨n, _, hn, h⟩ := bind_eq_ok.mp h
    cases h
    rintro _ ⟨⟩
    exact readWord_range hn
  | indirectIndexed =>
    obtain ⟨pointer, _, _, h⟩ := bind_eq_ok.mp h
    obtain ⟨base, _, _, h⟩ := bind_eq_ok.mp h
    obtain ⟨_, _, _, h⟩ := bind_eq_ok.mp h
    cases h
    rintro _ ⟨⟩
    exact ⟨word_nonneg _, word_le _⟩

/-- The address that an operand denotes by itself, without a look at registers or pointers; `next` is
the address of the next instruction. -/
def direct? (mode : Mode) (operand : List Int) (next : Int) : Option Int :=
  match mode, operand with
  | relative, [b] => some (word (next + signedOffset b))
  | zeroPage, [b] => some b
  | absolute, [lo, hi] => some (wordOf lo hi)
  | _, _ => none

/-- Such an address is the effective one. -/
theorem resolve_direct (mode : Mode) (h : m.memory.Flat) {e : Option Int} {m' : Machine} {a : Int}
    (hr : mode.resolve m = .ok e m')
    (ha : mode.direct? (byteValues (m.memory.cells m.memory.pc mode.operandLength))
      (word (m.memory.pc + mode.operandLength)) = some a) : e = some a := by
  cases mode with
  | relative =>
    obtain ⟨m₁, hf, h₁⟩ := fetch_took h
    rw [resolve, bind_ok hf] at hr
    cases hr
    cases ha
    rw [h₁.pc]
    rfl
  | zeroPage =>
    obtain ⟨m₁, hf, -⟩ := fetch_took h
    rw [resolve, bind_ok hf] at hr
    cases hr
    cases ha
    rfl
  | absolute =>
    obtain ⟨m₁, hf, -⟩ := fetchWord_took h
    rw [resolve, bind_ok hf] at hr
    cases hr
    cases ha
    rfl
  | _ => simp [direct?] at ha

end Mode

namespace Machine

variable {m : Machine}

/-- A known instruction can be decoded, and only the implicit mode leaves it without address. -/
theorem decodeOperand_took (opcode : Byte) (i : Instruction) (h : m.memory.Flat)
    (hpc : word m.memory.pc = m.memory.pc) :
    ∃ d m', decodeOperand opcode i m.memory.pc m = .ok d m' ∧ Took m i.mode.operandLength m' ∧
      d.opcode = opcode ∧ d.instruction = i ∧
      d.operand = m.memory.cells m.memory.pc i.mode.operandLength ∧
      i.mode.format (byteValues d.operand) m'.memory.pc = .ok d.text ∧
      i.mode.resolve m = .ok d.address m' ∧ (d.address = none ↔ i.mode = .implicit) := by
  obtain ⟨address, m', hr, ht, ha⟩ := i.mode.resolve_took h hpc
  have hp : onMemory (Memory.peekMany m.memory.pc
      (word (m'.memory.pc - m.memory.pc)).toNat) m' =
      .ok (m.memory.cells m.memory.pc i.mode.operandLength) m' := by
    rw [ht.pc, Mode.passed_eq, onMemory_ok (Memory.peekMany_flat (ht.flat h) _ _)]
    rw [Memory.cells_congr ht.cell]
  have hlength : (byteValues (m.memory.cells m.memory.pc i.mode.operandLength)).length =
      i.mode.operandLength := by
    simp [byteValues]
  obtain ⟨text, hf⟩ := i.mode.format_ok hlength m'.memory.pc
  refine ⟨⟨opcode, i, text, m.memory.cells m.memory.pc i.mode.operandLength, address⟩, m', ?_, ht,
    rfl, rfl, rfl, hf, hr, ha⟩
  rw [decodeOperand, bind_ok hr]
  change (onMemory (Memory.peekMany m.memory.pc
    (word (m'.memory.pc - m.memory.pc)).toNat) >>= _) m' = _
  rw [bind_ok hp]
  simp only [hf]
  rfl

/-- The machine that has fetched the byte at its counter, and has logged nothing else. -/
def primed (m : Machine) : Machine := { m with memory := m.memory.cleared.fetched }

theorem primed_took (m : Machine) : Took m 1 m.primed :=
  ⟨rfl, rfl, rfl, rfl, rfl, rfl, rfl, rfl, rfl, rfl⟩

/-- A running step fetches the byte at the counter, and carries out what it stands for. -/
theorem step_fetched (h : m.memory.Flat) (hr : m.status = .running) :
    step m = (carryOut (m.memory.cell m.memory.pc) m.memory.pc >>= report) m.primed := by
  have hf : Mode.fetch m.cleared = .ok (m.memory.cell m.memory.pc) m.primed := by
    rw [← m.memory.cell_cleared m.memory.pc]
    exact fetch_flat h.cleared
  rw [step_running (running_iff.mpr hr), bind_ok hf, carryOut_report]

def stumbled (m : Machine) : Machine :=
  { m.primed with status := .failed (m.memory.cell m.memory.pc) m.memory.pc }

theorem stumbled_eq (m : Machine) :
    m.stumbled =
      { m with
        memory := { m.memory with
          bus := { m.memory.bus with
            log := #[⟨.read, word m.memory.pc, m.memory.cell m.memory.pc⟩] }
          pc := word (m.memory.pc + 1) }
        status := .failed (m.memory.cell m.memory.pc) m.memory.pc } := by
  have hcell : m.memory.cleared.cell m.memory.cleared.pc = m.memory.cell m.memory.pc :=
    m.memory.cell_cleared m.memory.pc
  rw [stumbled, primed, Memory.fetched, Memory.noted, hcell]
  rfl

theorem step_stumbled (h : m.memory.Flat) (hr : m.status = .running)
    (ht : m.table.get? (m.memory.cell m.memory.pc) = none) :
    step m = .error (.unknownOpcode (m.memory.cell m.memory.pc) m.memory.pc) m.stumbled := by
  have hd : decode (m.memory.cell m.memory.pc) m.memory.pc m.primed =
      .error (.unknownOpcode (m.memory.cell m.memory.pc) m.memory.pc) m.stumbled :=
    decode_undefined (m := m.primed) ht m.memory.pc
  rw [step_fetched h hr, ← carryOut_report, bind_error hd]

/-- A byte that is no opcode fails the step. -/
theorem step_undefined (h : m.memory.Flat) (hr : m.status = .running)
    (ht : m.table.get? (m.memory.cell m.memory.pc) = none) :
    outcome step m = .error (.unknownOpcode (m.memory.cell m.memory.pc) m.memory.pc) :=
  outcome_error (step_stumbled h hr ht)

/-- What is known of the instruction `i` at the counter of `m` once it is decoded. -/
structure Deciphers (m : Machine) (i : Instruction) (d : Decoded) : Prop where
  opcode : d.opcode = m.memory.cell m.memory.pc
  instruction : d.instruction = i
  operand : d.operand = m.memory.cells (m.memory.pc + 1) i.mode.operandLength
  text : i.mode.format (byteValues d.operand)
    (word (m.memory.pc + (1 + i.mode.operandLength : Nat))) = .ok d.text
  address : d.address = none ↔ i.mode = .implicit
  direct : ∀ a, i.mode.direct? (byteValues d.operand)
    (word (m.memory.pc + (1 + i.mode.operandLength : Nat))) = some a → d.address = some a
  range : ∀ a ∈ d.address, 0 ≤ a ∧ a ≤ 0xFFFF

/-- A defined instruction is decoded, and what it then does is what the step does. -/
theorem step_resolved {i : Instruction} (h : m.memory.Flat) (hr : m.status = .running)
    (ht : m.table.get? (m.memory.cell m.memory.pc) = some i) :
    ∃ d m₁, step m = (execute d >>= fun _ => report d) m₁ ∧
      Took m (1 + i.mode.operandLength) m₁ ∧ m.Deciphers i d ∧
      i.mode.resolve m.primed = .ok d.address m₁ := by
  have h₁ := m.primed_took
  obtain ⟨d, m₂, hd, h₂, ho, hi, hoperand, htext, hresolve, ha⟩ :=
    decodeOperand_took (m.memory.cell m.memory.pc) i (h₁.flat h) h₁.pc_word
  have hcells : m.primed.memory.cells m.primed.memory.pc i.mode.operandLength =
      m.memory.cells (m.memory.pc + 1) i.mode.operandLength := by
    rw [Memory.cells_congr h₁.cell, h₁.pc, Memory.cells_word]
    rfl
  have hnext : m₂.memory.pc = word (m.memory.pc + (1 + i.mode.operandLength : Nat)) :=
    (h₁.trans h₂).pc
  have hpc : 0 ≤ m.primed.memory.pc ∧ m.primed.memory.pc ≤ 0xFFFF :=
    h₁.pc ▸ ⟨word_nonneg _, word_le _⟩
  have hdeciphers : m.Deciphers i d := by
    refine ⟨ho, hi, hoperand.trans hcells, hnext ▸ htext, ha, fun a hdirect => ?_,
      Mode.resolve_range hpc hresolve⟩
    rw [hoperand, ← hnext, h₂.pc] at hdirect
    exact Mode.resolve_direct i.mode (h₁.flat h) hresolve hdirect
  have hdecode : decode (m.memory.cell m.memory.pc) m.memory.pc m.primed = .ok d m₂ :=
    (decode_defined (m := m.primed) ht _).trans hd
  refine ⟨d, m₂, ?_, h₁.trans h₂, hdeciphers, hresolve⟩
  rw [step_fetched h hr, ← carryOut_report, bind_ok hdecode]

theorem step_defined {i : Instruction} (h : m.memory.Flat) (hr : m.status = .running)
    (ht : m.table.get? (m.memory.cell m.memory.pc) = some i) :
    ∃ d m₁, step m = (execute d >>= fun _ => report d) m₁ ∧
      Took m (1 + i.mode.operandLength) m₁ ∧ m.Deciphers i d := by
  obtain ⟨d, m₁, hstep, h₁, hd, -⟩ := step_resolved h hr ht
  exact ⟨d, m₁, hstep, h₁, hd⟩

/-- Whatever a known instruction does, it does not fail for want of an opcode. -/
theorem defined_compositional :
    Compositional (fun _ => True) (Keeps (fun m => m.memory.Flat) (·.kind ≠ .decode)) := by
  have hI : ∀ m m' : Machine, m.memory.Flat → Effect m m' → m'.memory.Flat :=
    fun _ _ h he => (he.steady h).flat
  refine Keeps.compositional hI (fun _ h => h) fun address value m h => ?_
  have hafter := hI _ _ h (.write address value)
  cases hw : write address value m with
  | ok a m' => exact after_ok hw ▸ hafter
  | error e m' =>
    rw [write_error h hw]
    exact fun hkind => nomatch hkind

theorem execute_report_kind {d : Decoded} {e : Fault} {m' : Machine} (h : m.memory.Flat)
    (he : (execute d >>= fun _ => report d) m = .error e m') : e.kind ≠ .decode := by
  have hexecute : Keeps (fun m => m.memory.Flat) (·.kind ≠ .decode) Unit (execute d) := by
    refine (defined_compositional.execute _ (fun _ _ => trivial) fun _ => ⟨?_, ?_⟩).bind fun _ => ?_
    · exact fun α m _ hkind => nomatch hkind
    · exact fun m _ hkind => nomatch hkind
    · split
      · exact fun _ hm => hm
      · exact .pure ()
  have hreport : Keeps (fun m => m.memory.Flat) (·.kind ≠ .decode) Snapshot (report d) :=
    fun m hm => hm
  have hm := hexecute.bind (fun _ => hreport) m h
  rwa [he] at hm

/-- A step that fails for want of an opcode has stumbled over the byte at the counter. -/
theorem after_step_stumbled {e : Fault} (h : m.memory.Flat) (he : outcome step m = .error e)
    (hkind : e.kind = .decode) : after step m = m.stumbled := by
  have hr := running_of_error he
  cases ht : m.table.get? (m.memory.cell m.memory.pc) with
  | none => exact after_error (step_stumbled h hr ht)
  | some i =>
    obtain ⟨d, m₁, hstep, h₁, -⟩ := step_defined h hr ht
    rw [outcome_eq_error, hstep] at he
    exact absurd hkind (execute_report_kind (h₁.flat h) he)

end Machine

end Micro6502
