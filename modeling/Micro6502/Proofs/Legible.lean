import Mathlib.Data.List.Nodup
import Micro6502.Proofs.Disassembly
import Micro6502.Proofs.OperandText

namespace Micro6502

theorem Mnemonic.name_injective {mnemonic mnemonic' : Mnemonic}
    (h : mnemonic.name = mnemonic'.name) : mnemonic = mnemonic' := by
  have hread : ∀ k : Mnemonic, ofName? k.name = some k := by
    intro k
    cases k <;> rfl
  have hsame := hread mnemonic
  rw [h, hread mnemonic'] at hsame
  exact (Option.some.inj hsame).symm

/-- Texts can be told apart in a listing: each byte has an instruction of its own, and no name goes
both with an absolute address and with the target of a branch. -/
structure OpcodeTable.Legible (t : OpcodeTable) : Prop where
  distinct : ∀ b b' i, t.get? b = some i → t.get? b' = some i → b = b'
  apart : ∀ b b' i i', t.get? b = some i → t.get? b' = some i' → i.mnemonic = i'.mnemonic →
    ¬ (i.mode = .absolute ∧ i'.mode = .relative)

theorem OpcodeTable.legible_ofList {entries : List (Byte × Instruction)}
    (hdistinct : (entries.map Prod.snd).Nodup)
    (hapart : ∀ e ∈ entries, e.2.mode = .absolute → ∀ e' ∈ entries, e'.2.mode = .relative →
      e.2.mnemonic ≠ e'.2.mnemonic) : (ofList entries).Legible where
  distinct b b' i hb hb' := by
    have hsame := List.inj_on_of_nodup_map hdistinct (mem_of_get?_ofList hb)
      (mem_of_get?_ofList hb') rfl
    exact congrArg Prod.fst hsame
  apart b b' i i' hb hb' hname hmodes :=
    hapart _ (mem_of_get?_ofList hb) hmodes.1 _ (mem_of_get?_ofList hb') hmodes.2 hname

theorem OpcodeTable.standard_legible : standard.Legible :=
  legible_ofList (by decide +kernel) (by decide +kernel)

def Instruction.written (i : Instruction) (operand : List Byte) (next : Int) : List Char :=
  i.mnemonic.name.toList ++
    if i.mode.written operand next = [] then [] else ' ' :: i.mode.written operand next

/-- The name and the operand can be told from the text. -/
theorem Instruction.written_parts {i i' : Instruction} {operand operand' : List Byte}
    {next next' : Int} (h : i.written operand next = i'.written operand' next') :
    i.mnemonic = i'.mnemonic ∧ i.mode.written operand next = i'.mode.written operand' next' := by
  obtain ⟨a, b, c, hname, -⟩ := i.mnemonic.name_toList
  obtain ⟨a', b', c', hname', -⟩ := i'.mnemonic.name_toList
  obtain ⟨hnames, hoperands⟩ := List.append_inj h (by rw [hname, hname']; rfl)
  refine ⟨Mnemonic.name_injective (String.toList_inj.mp hnames), ?_⟩
  split at hoperands
  · rename_i hnone
    split at hoperands
    · rename_i hnone'
      rw [hnone, hnone']
    · cases hoperands
  · split at hoperands
    · cases hoperands
    · exact (List.cons.inj hoperands).2

/-- The text of an instruction tells which one it is. -/
theorem OpcodeTable.Legible.instruction_eq {table : OpcodeTable} (ht : table.Legible)
    {b b' : Byte} {i i' : Instruction} {operand operand' : List Byte} {next next' : Int}
    (hb : table.get? b = some i) (hb' : table.get? b' = some i')
    (h : operand.length = i.mode.operandLength) (h' : operand'.length = i'.mode.operandLength)
    (hsame : i.written operand next = i'.written operand' next') : i = i' := by
  obtain ⟨hname, hoperand⟩ := Instruction.written_parts hsame
  have hmode : i.mode = i'.mode := by
    rcases Mode.frame?_injective (Mode.frame?_of_written h h' hoperand) with hmode | hmode | hmode
    · exact hmode
    · exact absurd hmode (ht.apart _ _ _ _ hb hb' hname)
    · exact absurd hmode.symm (ht.apart _ _ _ _ hb' hb hname.symm)
  obtain ⟨mnemonic, mode⟩ := i
  obtain ⟨mnemonic', mode'⟩ := i'
  cases hname
  cases hmode
  rfl

namespace Listing

variable {table : OpcodeTable} {m m' : Memory} {address : Int}

def dataChars (b : Byte) : List Char := ['D', 'B', ' ', '$'] ++ (Text.Hex.upper 2 b).toList

theorem dataChars_injective {b b' : Byte} (h : dataChars b = dataChars b') : b = b' := by
  have hread := congrArg Text.Hex.number? (List.append_cancel_left h)
  rw [Text.Hex.number?_upper, Text.Hex.number?_upper] at hread
  exact UInt8.toNat_inj.mp (Option.some.inj hread)

theorem dataChars_ne (b : Byte) (i : Instruction) (operand : List Byte) (next : Int) :
    dataChars b ≠ i.written operand next := by
  obtain ⟨x, y, z, hname, hz, -⟩ := i.mnemonic.name_toList
  intro h
  simp only [dataChars, Instruction.written, hname, List.cons_append, List.cons.injEq] at h
  exact hz h.2.2.1.symm

def lineAt (table : OpcodeTable) (m : Memory) (address : Int) : Line :=
  match table.get? (m.cell address) with
  | none => ⟨address, [m.cell address], String.ofList (dataChars (m.cell address))⟩
  | some i =>
    let operand := m.cells (address + 1) i.mode.operandLength
    ⟨address, m.cell address :: operand,
      String.ofList (i.written operand (word (address + (1 + i.mode.operandLength : Nat))))⟩

theorem lineAt_undefined (ht : table.get? (m.cell address) = none) :
    lineAt table m address =
      ⟨address, [m.cell address], String.ofList (dataChars (m.cell address))⟩ := by
  simp only [lineAt, ht]

theorem lineAt_defined {i : Instruction} (ht : table.get? (m.cell address) = some i) :
    lineAt table m address =
      ⟨address, m.cell address :: m.cells (address + 1) i.mode.operandLength,
        String.ofList (i.written (m.cells (address + 1) i.mode.operandLength)
          (word (address + (1 + i.mode.operandLength : Nat))))⟩ := by
  simp only [lineAt, ht]

theorem line_flat (h : m.Flat) (table : OpcodeTable) (address : Int) :
    line table address m = .ok (lineAt table m address) m := by
  cases ht : table.get? (m.cell address) with
  | none =>
    have htext : s!"DB ${Text.Hex.upper 2 (m.cell address)}" =
        String.ofList (dataChars (m.cell address)) := by
      simp [← String.toList_inj, dataChars, toString]
    rw [line_undefined h ht, lineAt_undefined ht, htext]
  | some i =>
    have hformat := i.mode.format_written (m.length_cells (address + 1) i.mode.operandLength)
      (word (address + (1 + i.mode.operandLength : Nat)))
    rw [line_defined h ht hformat, lineAt_defined ht]
    have htext (name : String) (cs : List Char) :
        (if (String.ofList cs).isEmpty then name else s!"{name} {String.ofList cs}") =
          String.ofList (name.toList ++ if cs = [] then [] else ' ' :: cs) := by
      cases cs <;> simp [← String.toList_inj, toString]
    rw [htext]
    rfl

/-- The bytes of a line are those from its address on, and there is at least one. -/
theorem bytes_lineAt (table : OpcodeTable) (m : Memory) (address : Int) :
    ∃ count, (lineAt table m address).bytes = m.cells address (count + 1) := by
  unfold lineAt
  split
  · exact ⟨0, rfl⟩
  · exact ⟨_, rfl⟩

/-- At one address the text tells the bytes. -/
theorem lineAt_legible (ht : table.Legible)
    (h : (lineAt table m address).text = (lineAt table m' address).text) :
    lineAt table m address = lineAt table m' address := by
  cases hi : table.get? (m.cell address) with
  | none =>
    cases hi' : table.get? (m'.cell address) with
    | none =>
      rw [lineAt_undefined hi, lineAt_undefined hi'] at h ⊢
      rw [dataChars_injective (String.ofList_injective h)]
    | some i' =>
      rw [lineAt_undefined hi, lineAt_defined hi'] at h
      exact absurd (String.ofList_injective h) (dataChars_ne _ _ _ _)
  | some i =>
    cases hi' : table.get? (m'.cell address) with
    | none =>
      rw [lineAt_defined hi, lineAt_undefined hi'] at h
      exact absurd (String.ofList_injective h).symm (dataChars_ne _ _ _ _)
    | some i' =>
      rw [lineAt_defined hi, lineAt_defined hi'] at h ⊢
      have hsame := String.ofList_injective h
      obtain rfl := ht.instruction_eq hi hi' (m.length_cells _ _) (m'.length_cells _ _) hsame
      rw [ht.distinct _ _ _ hi hi', Mode.written_injective (m.length_cells _ _)
        (m'.length_cells _ _) (Instruction.written_parts hsame).2]

def sweep (table : OpcodeTable) (m : Memory) (start : Int) (count : Nat) : List Line :=
  match count with
  | 0 => []
  | count + 1 =>
    let l := lineAt table m (word start)
    l :: sweep table m (start + (l.bytes.length : Nat)) (count + 1 - max 1 l.bytes.length)
termination_by count

theorem lines_flat (h : m.Flat) (table : OpcodeTable) (start : Int) (count : Nat) :
    lines table start count m = .ok (sweep table m start count) m := by
  fun_induction sweep table m start count with
  | case1 start =>
    rw [lines]
    rfl
  | case2 start count l ih =>
    rw [lines, bind_ok (line_flat h table (word start)), bind_ok ih]
    rfl

/-- A listing shows the bytes from its start on, without gaps, and at least as many as asked. -/
theorem bytes_sweep (table : OpcodeTable) (m : Memory) (start : Int) (count : Nat) :
    ∃ covered, count ≤ covered ∧
      (sweep table m start count).flatMap (·.bytes) = m.cells start covered := by
  fun_induction sweep table m start count with
  | case1 start => exact ⟨0, Nat.le_refl 0, rfl⟩
  | case2 start count l ih =>
    obtain ⟨k, hbytes⟩ : ∃ k, l.bytes = m.cells (word start) (k + 1) := bytes_lineAt _ _ _
    have hlength : l.bytes.length = k + 1 := by rw [hbytes, Memory.length_cells]
    obtain ⟨covered, hle, hrest⟩ := ih
    rw [hlength] at hle hrest
    refine ⟨k + 1 + covered, by omega, ?_⟩
    rw [List.flatMap_cons, hlength, hrest, hbytes, Memory.cells_word,
      Memory.cells_add m start (k + 1)]

/-- Listings that read alike are the same: their lines have the same length as long as they have the
same text, so the one listing does not leave the other. -/
theorem sweep_legible (ht : table.Legible) (start : Int) (count : Nat)
    (h : (sweep table m start count).map (·.text) = (sweep table m' start count).map (·.text)) :
    sweep table m start count = sweep table m' start count := by
  fun_induction sweep table m start count with
  | case1 start =>
    rw [sweep]
  | case2 start count l ih =>
    rw [sweep] at h ⊢
    simp only [List.map_cons, List.cons.injEq] at h
    have hl : l = lineAt table m' (word start) := lineAt_legible ht h.1
    rw [← hl] at h ⊢
    rw [ih h.2]

/-- The address and the text of every line determine every byte that the listing covers. -/
theorem lines_legible (ht : table.Legible) (h : m.Flat) (h' : m'.Flat) (start length : Int) :
    ∃ ls ls', lines table start length.toNat m = .ok ls m ∧
      lines table start length.toNat m' = .ok ls' m' ∧
      (ls.map (fun l => (l.address, l.text)) = ls'.map (fun l => (l.address, l.text)) →
        ls.map (·.hex) = ls'.map (·.hex) ∧
        let covered := (ls.flatMap (·.bytes)).length
        length ≤ covered ∧ m.cells start covered = m'.cells start covered) := by
  refine ⟨_, _, lines_flat h table start length.toNat, lines_flat h' table start length.toNat,
    fun hsame => ?_⟩
  have htexts := congrArg (List.map Prod.snd) hsame
  simp only [List.map_map, Function.comp_def] at htexts
  have hlines := sweep_legible ht start length.toNat htexts
  refine ⟨congrArg (List.map Line.hex) hlines, ?_⟩
  obtain ⟨covered, hle, hbytes⟩ := bytes_sweep table m start length.toNat
  obtain ⟨covered', -, hbytes'⟩ := bytes_sweep table m' start length.toNat
  have hcovered : ((sweep table m start length.toNat).flatMap (·.bytes)).length = covered := by
    rw [hbytes, Memory.length_cells]
  have hcovered' : covered' = covered := by
    rw [← hcovered, hlines, hbytes', Memory.length_cells]
  dsimp only
  rw [hcovered]
  refine ⟨by omega, ?_⟩
  rw [← hbytes, hlines, hbytes', hcovered']

/-- A branch across the end of memory behind a byte that is no opcode: where the offsets differ, so do
the listings. -/
theorem lines_legible_branch :
    let m := Memory.loaded {} 0xFFFE [0x02, 0xD0, 0xFC]
    let m' := Memory.loaded {} 0xFFFE [0x02, 0xD0, 0x7C]
    OpcodeTable.standard.Legible ∧ m.Flat ∧ m'.Flat ∧
      ∃ ls ls', lines .standard 0xFFFE 3 m = .ok ls m ∧ lines .standard 0xFFFE 3 m' = .ok ls' m' ∧
        ls.map (fun l => (l.address, l.text)) ≠ ls'.map (fun l => (l.address, l.text)) := by
  have hblank : Memory.Flat {} := Bus.flat_blank
  have hflat (offset : Int) : (Memory.loaded {} 0xFFFE [0x02, 0xD0, offset]).Flat :=
    hblank.loaded _ _
  have hcell (offset : Int) :
      (Memory.loaded {} 0xFFFE [0x02, 0xD0, offset]).cell (0xFFFE + 1 + 1) = byte offset :=
    Memory.cell_loaded_at hblank 0xFFFE (by simp) ⟨2, by simp⟩
  obtain ⟨ls, ls', hls, hls', hlegible⟩ :=
    lines_legible OpcodeTable.standard_legible (hflat 0xFC) (hflat 0x7C) 0xFFFE 3
  refine ⟨OpcodeTable.standard_legible, hflat _, hflat _, ls, ls', hls, hls', fun hsame => ?_⟩
  obtain ⟨-, hle, hcells⟩ := hlegible hsame
  obtain ⟨k, hk⟩ := Nat.exists_eq_add_of_le' (Int.ofNat_le.mp hle)
  rw [hk] at hcells
  simp only [Memory.cells, List.cons.injEq, hcell] at hcells
  exact absurd hcells.2.2.1 (by decide)

end Listing

end Micro6502
