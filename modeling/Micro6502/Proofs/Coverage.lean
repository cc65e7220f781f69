import Mathlib.Data.List.Chain
import Micro6502.Proofs.Dump
import Micro6502.Proofs.Legible

namespace Micro6502

theorem Mode.operandLength_le (mode : Mode) : mode.operandLength ≤ 2 := by
  cases mode <;> decide

namespace Listing

variable {table : OpcodeTable} {m : Memory}

def span (table : OpcodeTable) (m : Memory) (address : Int) : Nat :=
  match table.get? (m.cell address) with
  | none => 1
  | some i => 1 + i.mode.operandLength

theorem span_le (table : OpcodeTable) (m : Memory) (address : Int) : span table m address ≤ 3 := by
  unfold span
  split
  · decide
  · rename_i i _
    have := i.mode.operandLength_le
    omega

theorem length_lineAt (table : OpcodeTable) (m : Memory) (address : Int) :
    (lineAt table m address).bytes.length = span table m address := by
  cases ht : table.get? (m.cell address) with
  | none =>
    rw [lineAt_undefined ht, span, ht]
    rfl
  | some i =>
    rw [lineAt_defined ht, span, ht, List.length_cons, Memory.length_cells, Nat.add_comm]

theorem address_lineAt (table : OpcodeTable) (m : Memory) (address : Int) :
    (lineAt table m address).address = address := by
  unfold lineAt
  split <;> rfl

/-- Each line is the one at its place: as far from the start as the lines before it are long. -/
theorem sweep_at {start : Int} {count : Nat} {before after : List Line} {l : Line}
    (h : sweep table m start count = before ++ l :: after) :
    let offset := (before.flatMap (·.bytes)).length
    l = lineAt table m (word (start + (offset : Nat))) ∧ offset < count := by
  induction before generalizing start count with
  | nil =>
    cases count with
    | zero =>
      rw [sweep] at h
      cases h
    | succ count =>
      rw [sweep] at h
      obtain ⟨rfl, -⟩ := List.cons.inj h
      simp
  | cons first before ih =>
    cases count with
    | zero =>
      rw [sweep] at h
      cases h
    | succ count =>
      rw [sweep] at h
      obtain ⟨rfl, hrest⟩ := List.cons.inj h
      obtain ⟨hl, hoffset⟩ := ih hrest
      intro offset
      have hparts : offset = (lineAt table m (word start)).bytes.length +
          (before.flatMap (·.bytes)).length := by
        simp [offset]
      refine ⟨?_, by omega⟩
      rw [hl, hparts, Int.natCast_add, Int.add_assoc]

theorem head_sweep (table : OpcodeTable) (m : Memory) (start : Int) {count : Nat} (h : 0 < count) :
    (sweep table m start count).head?.map (·.address) = some (word start) := by
  obtain ⟨count, rfl⟩ := Nat.exists_eq_succ_of_ne_zero (Nat.ne_of_gt h)
  rw [sweep, List.head?_cons, Option.map_some, address_lineAt]

/-- Only the operand of the last line is beyond the end. -/
theorem length_sweep_le (table : OpcodeTable) (m : Memory) (start : Int) (count : Nat) :
    ((sweep table m start count).flatMap (·.bytes)).length ≤ count + 2 := by
  rcases List.eq_nil_or_concat (sweep table m start count) with hnone | ⟨before, l, hlast⟩
  · simp [hnone]
  · rw [List.concat_eq_append] at hlast
    obtain ⟨hl, hoffset⟩ := sweep_at hlast
    have hspan := span_le table m (word (start + ((before.flatMap (·.bytes)).length : Nat)))
    rw [← length_lineAt, ← hl] at hspan
    rw [hlast, List.flatMap_append, List.length_append, List.flatMap_singleton]
    omega

theorem sweep_chain (table : OpcodeTable) (m : Memory) (start : Int) (count : Nat) :
    (sweep table m start count).IsChain fun l l' =>
      l'.address = word (l.address + (l.bytes.length : Nat)) := by
  rw [List.isChain_iff_forall_rel_of_append_cons_cons]
  intro l l' before after hl
  have hnext : sweep table m start count = (before ++ [l]) ++ l' :: after := by
    rw [hl, List.append_assoc, List.singleton_append]
  have hfirst := congrArg Line.address (sweep_at hl).1
  have hsecond := congrArg Line.address (sweep_at hnext).1
  rw [address_lineAt] at hfirst hsecond
  rw [hfirst, hsecond, List.flatMap_append, List.length_append, List.flatMap_singleton]
  unfold word
  omega

/-- A line shows the bytes of its instruction, or a byte that is none. -/
theorem lineAt_shows (h : m.Flat) (address : Int) :
    let l := lineAt table m address
    HexDump.parse l.hex.toList = .ok l.bytes ∧
      match table.get? (m.cell address) with
      | none => l.bytes.length = 1 ∧ l.text = s!"DB ${Text.Hex.upper 2 (m.cell address)}"
      | some i => l.bytes.length = 1 + i.mode.operandLength := by
  intro l
  refine ⟨(HexDump.written_upper l.bytes).parse_eq, ?_⟩
  have hlength := length_lineAt table m address
  cases ht : table.get? (m.cell address) with
  | none =>
    have hline := (line_flat h table address).symm.trans (line_undefined h ht)
    simp only [EStateM.Result.ok.injEq, and_true] at hline
    exact ⟨congrArg (fun l : Line => l.bytes.length) hline, congrArg Line.text hline⟩
  | some i =>
    rw [span, ht] at hlength
    exact hlength

/-- The lines of a listing cover the bytes from the start on, each once and in order. -/
theorem lines_cover (h : m.Flat) (table : OpcodeTable) (start length : Int) :
    ∃ ls, lines table start length.toNat m = .ok ls m ∧
      let covered := (ls.flatMap (·.bytes)).length
      (length ≤ 0 → ls = []) ∧
      (0 < length → ls.head?.map (·.address) = some (word start) ∧
        length ≤ covered ∧ covered ≤ length + 2) ∧
      ls.IsChain (fun l l' => l'.address = word (l.address + (l.bytes.length : Nat))) ∧
      ls.flatMap (·.bytes) = m.cells start covered ∧
      (∀ before l after, ls = before ++ l :: after →
        ((before.flatMap (·.bytes)).length : Int) < length) ∧
      ∀ l ∈ ls, HexDump.parse l.hex.toList = .ok l.bytes ∧
        match table.get? (m.cell l.address) with
        | none => l.bytes.length = 1 ∧ l.text = s!"DB ${Text.Hex.upper 2 (m.cell l.address)}"
        | some i => l.bytes.length = 1 + i.mode.operandLength := by
  obtain ⟨covered, hle, hbytes⟩ := bytes_sweep table m start length.toNat
  have hcovered : ((sweep table m start length.toNat).flatMap (·.bytes)).length = covered := by
    rw [hbytes, Memory.length_cells]
  refine ⟨_, lines_flat h table start length.toNat, ?_⟩
  dsimp only
  rw [hcovered]
  refine ⟨?_, ?_, sweep_chain table m start length.toNat, hbytes, ?_, ?_⟩
  · intro hnone
    rw [Int.toNat_of_nonpos hnone, sweep]
  · intro hsome
    have hover := length_sweep_le table m start length.toNat
    exact ⟨head_sweep table m start (by omega), by omega, by omega⟩
  · intro before l after hl
    have := (sweep_at hl).2
    omega
  · intro l hl
    obtain ⟨before, after, hparts⟩ := List.append_of_mem hl
    rw [(sweep_at hparts).1, address_lineAt]
    exact lineAt_shows h _

/-- One byte is asked for, and the jump that it begins goes on around the end of memory. -/
theorem lines_cover_jump :
    let m := Memory.loaded {} (-1) [0x4C, 0x34, 0x12]
    m.Flat ∧ ∃ ls, lines .standard (-1) 1 m = .ok ls m ∧
      ls.flatMap (·.bytes) = [0x4C, 0x34, 0x12] := by
  have hblank : Memory.Flat {} := Bus.flat_blank
  have hflat := hblank.loaded (-1) [0x4C, 0x34, 0x12]
  have hcell (i : Fin [0x4C, 0x34, 0x12].length) :
      (Memory.loaded {} (-1) [0x4C, 0x34, 0x12]).cell (-1 + (i : Nat)) =
        byte ([0x4C, 0x34, 0x12].get i) :=
    Memory.cell_loaded_at hblank (-1) (by simp) i
  generalize Memory.loaded {} (-1) [0x4C, 0x34, 0x12] = m at hflat hcell ⊢
  have hfirst : m.cell (-1) = 0x4C := hcell ⟨0, by simp⟩
  have hsecond : m.cell (-1 + 1) = 0x34 := hcell ⟨1, by simp⟩
  have hthird : m.cell (-1 + 1 + 1) = 0x12 := hcell ⟨2, by simp⟩
  obtain ⟨ls, hls, -, hsome, -, hbytes, -, hshows⟩ := lines_cover hflat .standard (-1) 1
  obtain ⟨hhead, -, hover⟩ := hsome (by decide)
  refine ⟨hflat, ls, hls, ?_⟩
  cases ls with
  | nil => cases hhead
  | cons l rest =>
    have haddress : l.address = word (-1) := Option.some.inj hhead
    have hjump : OpcodeTable.standard.get? (m.cell l.address) = some ⟨.jmp, .absolute⟩ := by
      rw [haddress, Memory.cell_word, hfirst]
      rfl
    have hlength := (hshows l List.mem_cons_self).2
    rw [hjump] at hlength
    have hthree : ((l :: rest).flatMap (·.bytes)).length = 3 := by
      rw [List.flatMap_cons, List.length_append] at hover ⊢
      simp only [Mode.operandLength] at hlength
      omega
    rw [hbytes, hthree]
    simp only [Memory.cells, hfirst, hsecond, hthird]

end Listing

end Micro6502
