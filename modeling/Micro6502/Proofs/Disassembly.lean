import Micro6502.Listing
import Micro6502.Proofs.Hexadecimal
import Micro6502.Proofs.StepOutcome

namespace Micro6502

def Line.isData (l : Line) : Bool := l.text.toList.take 3 == ['D', 'B', ' ']

/-- The address that a line names: the hexadecimal number behind its `$`. -/
def Line.named? (l : Line) : Option Nat :=
  Text.Hex.number? ((l.text.toList.dropWhile (· != '$')).drop 1)

theorem Line.isData_byte (address : Int) (b : Byte) :
    (Line.mk address [b] s!"DB ${Text.Hex.upper 2 b}").isData = true := by
  simp [isData, toString]

/-- No name of an instruction can be taken for the mark of a byte. -/
theorem Mnemonic.name_toList (mnemonic : Mnemonic) :
    ∃ a b c, mnemonic.name.toList = [a, b, c] ∧ c ≠ ' ' ∧ '$' ∉ [a, b, c] := by
  cases mnemonic <;> exact ⟨_, _, _, rfl, by decide, by decide⟩

namespace Decoded

theorem symbol_toList (d : Decoded) :
    d.symbol.toList = d.instruction.mnemonic.name.toList ++
      if d.text.isEmpty then [] else ' ' :: d.text.toList := by
  unfold symbol
  split
  · simp
  · simp [toString]

variable {d : Decoded}

theorem not_isData (address : Int) (bytes : List Byte) :
    (Line.mk address bytes d.symbol).isData = false := by
  obtain ⟨a, b, c, hname, hc, -⟩ := d.instruction.mnemonic.name_toList
  simp [Line.isData, symbol_toList, hname, hc]

/-- An address that makes up the operand text is the one that the line names. -/
theorem named?_eq {width a : Nat} (ha : d.text = s!"${Text.Hex.upper width a}") (address : Int)
    (bytes : List Byte) : (Line.mk address bytes d.symbol).named? = some a := by
  obtain ⟨x, y, z, hname, -, hmark⟩ := d.instruction.mnemonic.name_toList
  simp only [List.mem_cons, List.not_mem_nil, or_false, not_or] at hmark
  have htext : d.text.toList = '$' :: (Text.Hex.upper width a).toList := by
    simp [ha, toString]
  have hempty : d.text.isEmpty = false := by
    simp [ha, toString]
  simp [Line.named?, symbol_toList, hname, hempty, htext, Ne.symm hmark.1, Ne.symm hmark.2.1,
    Ne.symm hmark.2.2, Text.Hex.number?_upper]

end Decoded

namespace Listing

variable {table : OpcodeTable} {m : Memory} {address : Int}

theorem line_undefined (h : m.Flat) (ht : table.get? (m.cell address) = none) :
    line table address m =
      .ok ⟨address, [m.cell address], s!"DB ${Text.Hex.upper 2 (m.cell address)}"⟩ m := by
  rw [line, bind_ok (Memory.peek_flat h address), ht]
  rfl

theorem line_defined {i : Instruction} {text : String} (h : m.Flat)
    (ht : table.get? (m.cell address) = some i)
    (hf : i.mode.format (byteValues (m.cells (address + 1) i.mode.operandLength))
      (word (address + (1 + i.mode.operandLength : Nat))) = .ok text) :
    line table address m =
      .ok ⟨address, m.cell address :: m.cells (address + 1) i.mode.operandLength,
        if text.isEmpty then i.mnemonic.name else s!"{i.mnemonic.name} {text}"⟩ m := by
  have hnext : address + 1 + ((m.cells (address + 1) i.mode.operandLength).length : Nat) =
      address + (1 + i.mode.operandLength : Nat) := by
    rw [Memory.length_cells]
    omega
  rw [line, bind_ok (Memory.peek_flat h address), ht]
  change (Memory.peekMany (address + 1) i.mode.operandLength >>= _) m = _
  rw [bind_ok (Memory.peekMany_flat h (address + 1) i.mode.operandLength)]
  simp only [lineOf, hnext, hf]
  rfl

/-- A listing of one byte has one line. -/
theorem lines_one {l : Line} (hl : line table (word address) m = .ok l m) :
    lines table address 1 m = .ok [l] m := by
  have hrest : 0 + 1 - max 1 l.bytes.length = 0 := by omega
  rw [lines, bind_ok hl, hrest, lines]
  rfl

end Listing

namespace Mode

/-- In the modes whose operand is an address, the text is that address behind a `$`. -/
theorem format_direct {mode : Mode} {operand : List Int} {next a : Int} {text : String}
    (hf : mode.format operand next = .ok text) (ha : mode.direct? operand next = some a) :
    ∃ width, text = s!"${Text.Hex.upper width a}" := by
  unfold direct? at ha
  split at ha
  · cases ha
    cases hf
    exact ⟨4, rfl⟩
  · cases ha
    cases hf
    exact ⟨2, rfl⟩
  · cases ha
    cases hf
    exact ⟨4, rfl⟩
  · cases ha

theorem direct?_isSome {mode : Mode} {operand : List Int}
    (hmode : mode = .relative ∨ mode = .absolute ∨ mode = .zeroPage)
    (h : operand.length = mode.operandLength) (next : Int) :
    ∃ a, mode.direct? operand next = some a := by
  rcases hmode with rfl | rfl | rfl
  · obtain ⟨b, rfl⟩ := List.length_eq_one_iff.mp h
    exact ⟨_, rfl⟩
  · obtain ⟨lo, hi, rfl⟩ := List.length_eq_two.mp h
    exact ⟨_, rfl⟩
  · obtain ⟨b, rfl⟩ := List.length_eq_one_iff.mp h
    exact ⟨_, rfl⟩

end Mode

namespace Machine

variable {m : Machine}

theorem Deciphers.line {i : Instruction} {d : Decoded} (hd : m.Deciphers i d) (h : m.memory.Flat)
    (ht : m.table.get? (m.memory.cell m.memory.pc) = some i) :
    Listing.line m.table m.memory.pc m.memory =
      .ok ⟨m.memory.pc, d.opcode :: d.operand, d.symbol⟩ m.memory := by
  rw [Listing.line_defined h ht (hd.operand ▸ hd.text), hd.opcode, hd.operand, ← hd.instruction]
  rfl

/-- What a step tells of its instruction stands in the line. -/
theorem Deciphers.shown {i : Instruction} {d : Decoded} (hd : m.Deciphers i d) {s : Snapshot}
    (hs : s.decoded = some d) :
    let l : Line := ⟨m.memory.pc, d.opcode :: d.operand, d.symbol⟩
    l.hex = " ".intercalate
        (s.opcodeText :: s.operand.map fun (b : Byte) => Text.Hex.upper 2 b) ∧
      l.text = s.symbol ∧
      l.bytes.length = s.length ∧ s.length = 1 + s.mode.operandLength ∧
      (s.mode = .relative ∨ s.mode = .absolute ∨ s.mode = .zeroPage →
        ∃ a : Nat, l.named? = some a ∧ s.address = some (a : Int)) := by
  have hlength : d.operand.length = i.mode.operandLength := by
    rw [hd.operand, Memory.length_cells]
  refine ⟨?_, ?_, ?_, ?_, ?_⟩
  · simp [Line.hex, Snapshot.opcodeText, Snapshot.operand, hs]
  · simp [Snapshot.symbol, hs]
  · simp [Snapshot.length, hs, Nat.add_comm]
  · simp [Snapshot.length, Snapshot.mode, hs, hlength, hd.instruction]
  · intro hmode
    have hmode : i.mode = .relative ∨ i.mode = .absolute ∨ i.mode = .zeroPage := by
      simpa [Snapshot.mode, hs, hd.instruction] using hmode
    have hvalues : (byteValues d.operand).length = i.mode.operandLength := by
      simpa [byteValues] using hlength
    obtain ⟨a, ha⟩ := Mode.direct?_isSome hmode hvalues
      (word (m.memory.pc + (1 + i.mode.operandLength : Nat)))
    obtain ⟨width, htext⟩ := Mode.format_direct hd.text ha
    have haddress := hd.direct a ha
    obtain ⟨n, rfl⟩ := Int.eq_ofNat_of_zero_le (hd.range a haddress).1
    exact ⟨n, Decoded.named?_eq htext _ _, by simpa [Snapshot.address, hs] using haddress⟩

/-- The listing at the counter, and what it has in common with a step from there. The snapshot of a
step shows the address, the bytes and the text of the line; where the text is an address, it is the
effective one; and the step fails on an unknown opcode if and only if the line is that of a byte. -/
theorem step_listed (h : m.memory.Flat) (hr : m.status = .running)
    (hpc : 0 ≤ m.memory.pc ∧ m.memory.pc ≤ 0xFFFF) :
    ∃ l, Listing.lines m.table m.memory.pc 1 m.memory = .ok [l] m.memory ∧
      (∀ s, outcome step m = .ok s →
        l.address = m.memory.pc ∧
        l.hex = " ".intercalate
          (s.opcodeText :: s.operand.map fun (b : Byte) => Text.Hex.upper 2 b) ∧
        l.text = s.symbol ∧
        l.bytes.length = s.length ∧ s.length = 1 + s.mode.operandLength ∧
        (s.mode = .relative ∨ s.mode = .absolute ∨ s.mode = .zeroPage →
          ∃ a : Nat, l.named? = some a ∧ s.address = some (a : Int))) ∧
      ((∃ e, outcome step m = .error e ∧ e.kind = .decode) ↔ l.isData = true) := by
  have hword : word m.memory.pc = m.memory.pc := word_of_range hpc.1 hpc.2
  cases ht : m.table.get? (m.memory.cell m.memory.pc) with
  | none =>
    have hstep := step_undefined h hr ht
    have hline := Listing.line_undefined h ht
    refine ⟨_, Listing.lines_one (by rw [hword, hline]), ?_, ?_⟩
    · intro s hs
      rw [hstep] at hs
      cases hs
    · rw [Line.isData_byte]
      exact ⟨fun _ => rfl, fun _ => ⟨_, hstep, rfl⟩⟩
  | some i =>
    obtain ⟨d, m₁, hstep, h₁, hd⟩ := step_defined h hr ht
    have hline := hd.line h ht
    refine ⟨_, Listing.lines_one (by rw [hword, hline]), ?_, ?_⟩
    · intro s hs
      rw [outcome_eq_ok, hstep] at hs
      obtain ⟨m₂, -, -, rfl⟩ := execute_report_ok hs
      exact ⟨rfl, hd.shown rfl⟩
    · rw [Decoded.not_isData]
      refine ⟨fun ⟨e, he, hkind⟩ => ?_, fun hfalse => nomatch hfalse⟩
      rw [outcome_eq_error, hstep] at he
      exact absurd hkind (execute_report_kind (h₁.flat h) he)

/-- A branch whose operand lies beyond the end of memory. -/
theorem step_listed_straddling :
    let m : Machine := { memory := { Memory.loaded {} 0xFFFF [0xD0, 0xFC] with pc := 0xFFFF } }
    m.memory.Flat ∧ m.status = .running ∧ (0 ≤ m.memory.pc ∧ m.memory.pc ≤ 0xFFFF) ∧
      ∃ l s, Listing.lines m.table 0xFFFF 1 m.memory = .ok [l] m.memory ∧
        outcome step m = .ok s ∧ l.text = s.symbol ∧ l.bytes.length = s.length := by
  have hblank : Memory.Flat {} := Bus.flat_blank
  have hflat := hblank.loaded 0xFFFF [0xD0, 0xFC]
  have hcell : (Memory.loaded {} 0xFFFF [0xD0, 0xFC]).cell 0xFFFF = 0xD0 := by
    simp only [Memory.loaded]
    rw [Memory.cell_stored (hblank.stored _ _), if_neg (by decide), Memory.cell_stored hblank,
      if_pos rfl]
    rfl
  generalize Memory.loaded {} 0xFFFF [0xD0, 0xFC] = memory at hflat hcell ⊢
  intro m
  have hpc : 0 ≤ m.memory.pc ∧ m.memory.pc ≤ 0xFFFF := ⟨by simp [m], by simp [m]⟩
  have ht : m.table.get? (m.memory.cell m.memory.pc) = some ⟨.bne, .relative⟩ := by
    change OpcodeTable.standard.get? (memory.cell 0xFFFF) = _
    rw [hcell]
    rfl
  obtain ⟨s, hs⟩ := step_returns ⟨hflat, by simp [m]⟩ rfl ht rfl
  obtain ⟨l, hl, hshown, -⟩ := step_listed (m := m) hflat rfl hpc
  exact ⟨hflat, rfl, hpc, l, s, hl, hs, (hshown s hs).2.2.1, (hshown s hs).2.2.2.1⟩

end Machine

end Micro6502
