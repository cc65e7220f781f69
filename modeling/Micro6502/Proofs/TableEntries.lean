import Mathlib.Data.List.Nodup
import Mathlib.Data.List.Perm.Basic
import Micro6502.Config.Table
import Micro6502.Proofs.Configuration

namespace Micro6502

namespace Mnemonic

theorem ofName?_eq_some {s : String} {mnemonic : Mnemonic} :
    ofName? s = some mnemonic ↔ s = mnemonic.name := by
  constructor
  · intro h
    have hname := List.find?_some h
    exact (beq_iff_eq.mp hname).symm
  · rintro rfl
    cases mnemonic <;> rfl

theorem name_ne_empty (mnemonic : Mnemonic) : mnemonic.name ≠ "" := by
  cases mnemonic <;> decide

end Mnemonic

namespace Mode

theorem ofName?_eq_some {s : String} {mode : Mode} : ofName? s = some mode ↔ s = mode.name := by
  constructor
  · intro h
    have hname := List.find?_some h
    exact (beq_iff_eq.mp hname).symm
  · rintro rfl
    cases mode <;> rfl

theorem name_ne_empty (mode : Mode) : mode.name ≠ "" := by
  cases mode <;> decide

end Mode

/-- What is found in a mapping can be written if the mapping can. -/
theorem Data.isWritable_of_lookup {key : String} {fields : List (Data × Data)} {value : Data}
    (h : Data.lookup key fields = some value) (hw : (Data.map fields).isWritable = true) :
    value.isWritable = true := by
  simp only [Data.isWritable] at hw
  induction fields with
  | nil => cases h
  | cons entry rest ih =>
    obtain ⟨k, v⟩ := entry
    simp only [Data.entriesAreWritable, Bool.and_eq_true] at hw
    obtain ⟨⟨-, hv⟩, hrest⟩ := hw
    unfold Data.lookup at h
    split at h
    · cases h
    · rename_i heq
      cases heq
      split at h
      · cases h
        exact hv
      · exact ih h hrest
    · rename_i heq
      cases heq
      exact ih h hrest

/-- The error is about the configuration, unless a number in one of the values is too long to be
written. -/
def ConfigError.Concerns (e : ConfigError) (values : List Data) : Prop :=
  e.kind = .config ∨ e.kind = .value ∧ ∃ value ∈ values, value.isWritable = false

theorem ConfigError.Concerns.mono {e : ConfigError} {values values' : List Data}
    (h : e.Concerns values) (hsub : values ⊆ values') : e.Concerns values' := by
  rcases h with hkind | ⟨hkind, value, hvalue, hw⟩
  · exact .inl hkind
  · exact .inr ⟨hkind, value, hsub hvalue, hw⟩

namespace Config

theorem refuse_concerns {α : Type} {value : Data} {cause e : ConfigError}
    (hkind : cause.kind = .config) (h : (refuse value cause : Except ConfigError α) = .error e) :
    e.Concerns [value] := by
  unfold refuse at h
  split at h
  · cases h
    exact .inl hkind
  · rename_i hw
    cases h
    exact .inr ⟨rfl, value, .head _, by simpa using hw⟩

theorem integer_concerns {value : Data} {e : ConfigError} (h : integer value = .error e) :
    e.Concerns [value] := by
  unfold integer at h
  split at h
  · cases h
  · split at h
    · cases h
    · cases h
      exact .inl rfl
  · exact refuse_concerns rfl h

end Config

namespace OpcodeTable

/-- The text under the key is the name, but for upper and lower case. -/
def Names (fields : List (Data × Data)) (key name : String) : Prop :=
  ∃ value text, Data.lookup key fields = some value ∧ value.text? = some text ∧
    Text.upper text = name

structure Gives (entry : Data × Data) (reading : Byte × Instruction) : Prop where
  key : Config.integer entry.1 = .ok (reading.1 : Int)
  body : ∃ fields, entry.2 = .map fields ∧
    Names fields "mnemonic" reading.2.mnemonic.name ∧ Names fields "mode" reading.2.mode.name

/-- Entries with distinct bytes for keys, each of which names a mnemonic and a mode. -/
structure WellFormed (entries : List (Data × Data)) : Prop where
  keys : ∀ entry ∈ entries, ∃ n, Config.integer entry.1 = .ok n ∧ 0 ≤ n ∧ n ≤ 0xFF
  distinct : entries.Pairwise fun entry other =>
    Config.integer entry.1 ≠ Config.integer other.1
  bodies : ∀ entry ∈ entries, ∃ fields, entry.2 = .map fields ∧
    (∃ mnemonic : Mnemonic, Names fields "mnemonic" mnemonic.name) ∧
    ∃ mode : Mode, Names fields "mode" mode.name

variable {t t' : OpcodeTable} {entries fields : List (Data × Data)} {key name : String}
  {opcode : Byte} {i : Instruction} {e : ConfigError}

/-- An absent name counts as empty, and nothing is called so. -/
theorem nameUnder_eq_some (hname : name ≠ "") :
    nameUnder key fields = some name ↔ Names fields key name := by
  unfold nameUnder Names
  cases h : Data.lookup key fields with
  | none =>
    have hempty : (Data.text "").text?.map Text.upper = some "" := rfl
    simp [hempty, hname.symm]
  | some value => simp

theorem parseInstruction_ok :
    parseInstruction opcode fields = .ok i ↔
      Names fields "mnemonic" i.mnemonic.name ∧ Names fields "mode" i.mode.name := by
  rw [← nameUnder_eq_some i.mnemonic.name_ne_empty, ← nameUnder_eq_some i.mode.name_ne_empty]
  unfold parseInstruction
  constructor
  · intro h
    split at h
    · simp [Config.refuse] at h
    · rename_i mnemonic hmnemonic
      split at h
      · simp [Config.refuse] at h
      · rename_i mode hmode
        cases h
        obtain ⟨s, hs, hs'⟩ := Option.bind_eq_some_iff.mp hmnemonic
        obtain ⟨s', hm, hm'⟩ := Option.bind_eq_some_iff.mp hmode
        exact ⟨Mnemonic.ofName?_eq_some.mp hs' ▸ hs, Mode.ofName?_eq_some.mp hm' ▸ hm⟩
  · rintro ⟨hmnemonic, hmode⟩
    simp only [hmnemonic, hmode, Option.bind_some, Mnemonic.ofName?_eq_some.mpr rfl,
      Mode.ofName?_eq_some.mpr rfl]

theorem parseInstruction_concerns (h : parseInstruction opcode fields = .error e) :
    e.Concerns [.map fields] := by
  have hname : ∀ key cause, ConfigError.kind cause = .config →
      (Config.refuse ((Data.lookup key fields).getD .null) cause : Except ConfigError Instruction) =
        .error e → e.Concerns [.map fields] := by
    intro key cause hkind hrefuse
    rcases Config.refuse_concerns hkind hrefuse with hconfig | ⟨hvalue, value, hmem, hw⟩
    · exact .inl hconfig
    · rw [List.mem_singleton] at hmem
      refine .inr ⟨hvalue, _, .head _, ?_⟩
      cases hl : Data.lookup key fields with
      | none => simp [hmem, hl, Data.isWritable] at hw
      | some found =>
        rw [hmem, hl, Option.getD_some] at hw
        by_contra hmap
        have := Data.isWritable_of_lookup hl (by simpa using hmap)
        simp [hw] at this
  unfold parseInstruction at h
  split at h
  · exact hname _ _ rfl h
  · split at h
    · exact hname _ _ rfl h
    · cases h

/-- A key that is no integer, or not the number of a byte, is refused. -/
theorem parseEntry_key (t : OpcodeTable) (key value : Data) :
    (∃ opcode : Byte, Config.integer key = .ok (opcode : Int)) ∨
      ∃ e : ConfigError, parseEntry t key value = .error e ∧ e.Concerns [key] ∧
        ∀ n, Config.integer key = .ok n → ¬ (0 ≤ n ∧ n ≤ 0xFF) := by
  cases hkey : Config.integer key with
  | error e => exact .inr ⟨e, by rw [parseEntry, hkey]; rfl, Config.integer_concerns hkey, nofun⟩
  | ok n =>
    by_cases hrange : 0 ≤ n ∧ n ≤ 0xFF
    · have hn : ((byte n : Byte) : Int) = n := by
        rw [val_byte]
        omega
      exact .inl ⟨byte n, by rw [hn]⟩
    · have hwide : n < 0 ∨ 0xFF < n := by omega
      have hrefuse : (Config.refuse key (.wideOpcode key) : Except ConfigError Unit) =
          .error (if key.isWritable then .wideOpcode key else .longNumber) := rfl
      refine .inr ⟨_, ?_, Config.refuse_concerns rfl hrefuse, ?_⟩
      · rw [parseEntry, hkey]
        simp only [bind, Except.bind, hwide, if_true, Config.refuse]
      · rintro _ ⟨⟩
        exact hrange

/-- An entry with a byte for its key is added if that has no instruction yet. -/
theorem parseEntry_eq {key value : Data} (hkey : Config.integer key = .ok (opcode : Int)) :
    parseEntry t key value =
      if (t.get? opcode).isSome then .error (.duplicateOpcode opcode)
      else match value with
        | .map fields => (parseInstruction opcode fields).map (t.insert opcode)
        | _ => .error (.notEntry opcode) := by
  have hrange : ¬ ((opcode : Int) < 0 ∨ 0xFF < (opcode : Int)) := by
    have := opcode.toNat_lt
    omega
  rw [parseEntry, hkey]
  simp only [bind, Except.bind, hrange, if_false, byte_val]
  cases (t.get? opcode).isSome with
  | true => rfl
  | false =>
    cases value with
    | map fields => cases parseInstruction opcode fields <;> rfl
    | _ => rfl

theorem parseEntry_ok {entry : Data × Data} :
    parseEntry t entry.1 entry.2 = .ok t' ↔
      ∃ reading, Gives entry reading ∧ t.get? reading.1 = none ∧
        t' = t.insert reading.1 reading.2 := by
  obtain ⟨key, value⟩ := entry
  constructor
  · intro h
    rcases parseEntry_key t key value with ⟨opcode, hkey⟩ | ⟨e, he, -⟩
    · rw [parseEntry_eq hkey] at h
      split at h
      · cases h
      · rename_i hfree
        cases value with
        | map fields =>
          cases hi : parseInstruction opcode fields with
          | error e => simp [hi, Except.map] at h
          | ok i =>
            simp only [hi, Except.map, Except.ok.injEq] at h
            exact ⟨(opcode, i), ⟨hkey, fields, rfl, parseInstruction_ok.mp hi⟩, by simpa using hfree,
              h.symm⟩
        | _ => cases h
    · rw [he] at h
      cases h
  · rintro ⟨⟨opcode, i⟩, ⟨hkey, fields, rfl, hnames⟩, hfree, rfl⟩
    have hi : parseInstruction opcode fields = .ok i := parseInstruction_ok.mpr hnames
    rw [parseEntry_eq hkey]
    simp [hfree, hi, Except.map]

theorem parseEntry_concerns {entry : Data × Data} (h : parseEntry t entry.1 entry.2 = .error e) :
    e.Concerns [entry.1, entry.2] := by
  obtain ⟨key, value⟩ := entry
  rcases parseEntry_key t key value with ⟨opcode, hkey⟩ | ⟨e', he, hc, -⟩
  · rw [parseEntry_eq hkey] at h
    split at h
    · cases h
      exact .inl rfl
    · cases value with
      | map fields =>
        cases hi : parseInstruction opcode fields with
        | error e' =>
          simp only [hi, Except.map, Except.error.injEq] at h
          exact h ▸ (parseInstruction_concerns hi).mono (by simp)
        | ok i => simp [hi, Except.map] at h
      | _ =>
        cases h
        exact .inl rfl
  · cases he.symm.trans h
    exact hc.mono (by simp)

def insertAll (t : OpcodeTable) (readings : List (Byte × Instruction)) : OpcodeTable :=
  readings.foldl (fun t reading => t.insert reading.1 reading.2) t

theorem get?_insertAll {readings : List (Byte × Instruction)}
    (hnodup : (readings.map Prod.fst).Nodup) (hfree : ∀ r ∈ readings, t.get? r.1 = none) :
    (t.insertAll readings).get? opcode = some i ↔
      (opcode, i) ∈ readings ∨ t.get? opcode = some i := by
  induction readings generalizing t with
  | nil => simp [insertAll]
  | cons r rest ih =>
    obtain ⟨o, j⟩ := r
    rw [List.map_cons, List.nodup_cons] at hnodup
    have hrest : ∀ r ∈ rest, (t.insert o j).get? r.1 = none := by
      intro r hr
      have hne : r.1 ≠ o := fun heq => hnodup.1 (List.mem_map.mpr ⟨r, hr, heq⟩)
      rw [get?_insert, if_neg hne]
      exact hfree r (.tail _ hr)
    have hinsert : (t.insert o j).get? opcode = some i ↔
        (opcode, i) = (o, j) ∨ t.get? opcode = some i := by
      rw [get?_insert]
      split
      · rename_i ho
        have hnone : t.get? o = none := hfree (o, j) (.head _)
        subst ho
        simp [hnone, eq_comm]
      · rename_i ho
        simp [ho]
    change ((t.insert o j).insertAll rest).get? opcode = some i ↔ _
    rw [ih hnodup.2 hrest, hinsert, List.mem_cons]
    tauto

/-- Entries are read one after the other, each into an empty slot. -/
theorem foldlM_ok :
    entries.foldlM (fun t entry => parseEntry t entry.1 entry.2) t = .ok t' ↔
      ∃ readings, List.Forall₂ Gives entries readings ∧ (readings.map Prod.fst).Nodup ∧
        (∀ r ∈ readings, t.get? r.1 = none) ∧ t' = t.insertAll readings := by
  induction entries generalizing t with
  | nil =>
    constructor
    · intro h
      cases h
      exact ⟨[], .nil, .nil, by simp, rfl⟩
    · rintro ⟨readings, hgives, -, -, rfl⟩
      cases hgives
      rfl
  | cons entry rest ih =>
    rw [List.foldlM_cons, except_bind_ok]
    constructor
    · rintro ⟨t₁, hentry, hrest⟩
      obtain ⟨r, hr, hfree, rfl⟩ := parseEntry_ok.mp hentry
      obtain ⟨readings, hgives, hnodup, hslots, rfl⟩ := ih.mp hrest
      have hother : ∀ s ∈ readings, s.1 ≠ r.1 ∧ t.get? s.1 = none := by
        intro s hs
        have hslot := hslots s hs
        rw [get?_insert] at hslot
        split at hslot
        · cases hslot
        · rename_i hne
          exact ⟨hne, hslot⟩
      refine ⟨r :: readings, .cons hr hgives, ?_, ?_, rfl⟩
      · rw [List.map_cons, List.nodup_cons]
        refine ⟨fun hmem => ?_, hnodup⟩
        obtain ⟨s, hs, heq⟩ := List.mem_map.mp hmem
        exact (hother s hs).1 heq
      · intro s hs
        rcases List.mem_cons.mp hs with rfl | hs
        · exact hfree
        · exact (hother s hs).2
    · rintro ⟨readings, hgives, hnodup, hslots, rfl⟩
      cases hgives with
      | @cons _ r _ readings hr hgives =>
        rw [List.map_cons, List.nodup_cons] at hnodup
        refine ⟨_, parseEntry_ok.mpr ⟨r, hr, hslots r (.head _), rfl⟩, ih.mpr ?_⟩
        refine ⟨readings, hgives, hnodup.2, fun s hs => ?_, rfl⟩
        have hne : s.1 ≠ r.1 := fun heq => hnodup.1 (List.mem_map.mpr ⟨s, hs, heq⟩)
        rw [get?_insert, if_neg hne]
        exact hslots s (.tail _ hs)

theorem foldlM_concerns
    (h : entries.foldlM (fun t entry => parseEntry t entry.1 entry.2) t = .error e) :
    e.Concerns (entries.flatMap fun entry => [entry.1, entry.2]) := by
  induction entries generalizing t with
  | nil => cases h
  | cons entry rest ih =>
    rw [List.foldlM_cons] at h
    cases hentry : parseEntry t entry.1 entry.2 with
    | error e' =>
      rw [hentry] at h
      cases h
      exact (parseEntry_concerns hentry).mono (List.subset_append_left _ _)
    | ok t₁ =>
      rw [hentry] at h
      exact (ih h).mono (List.subset_append_right _ _)

theorem get?_ofList {readings : List (Byte × Instruction)}
    (hnodup : (readings.map Prod.fst).Nodup) :
    (ofList readings).get? opcode = some i ↔ (opcode, i) ∈ readings := by
  refine (get?_insertAll hnodup fun r _ => get?_empty r.1).trans ?_
  simp

theorem mem_toList : (opcode, i) ∈ t.toList ↔ t.get? opcode = some i := by
  unfold toList
  rw [List.mem_filterMap]
  constructor
  · rintro ⟨n, -, hn⟩
    obtain ⟨j, hj, heq⟩ := Option.map_eq_some_iff.mp hn
    cases heq
    exact hj
  · intro h
    refine ⟨opcode.toNat, List.mem_range.mpr opcode.toNat_lt, ?_⟩
    simp [h]

theorem nodup_toList (t : OpcodeTable) : t.toList.Nodup := by
  unfold toList
  rw [List.Nodup, List.pairwise_filterMap]
  refine List.Pairwise.imp_of_mem ?_ List.pairwise_lt_range
  intro n k hn hk hlt r hr s hs
  obtain ⟨j, -, rfl⟩ := Option.map_eq_some_iff.mp hr
  obtain ⟨j', -, rfl⟩ := Option.map_eq_some_iff.mp hs
  intro heq
  have hbyte : UInt8.ofNat n = UInt8.ofNat k := congrArg Prod.fst heq
  have hnat := congrArg UInt8.toNat hbyte
  rw [List.mem_range] at hn hk
  simp only [UInt8.toNat_ofNat'] at hnat
  omega

/-- The table lists exactly what it was made of. -/
theorem toList_ofList {readings : List (Byte × Instruction)}
    (hnodup : (readings.map Prod.fst).Nodup) : (ofList readings).toList.Perm readings := by
  rw [List.perm_ext_iff_of_nodup (nodup_toList _) hnodup.of_map]
  rintro ⟨opcode, i⟩
  rw [mem_toList, get?_ofList hnodup]

theorem ofList_perm {readings readings' : List (Byte × Instruction)}
    (hnodup : (readings.map Prod.fst).Nodup) (h : readings.Perm readings') :
    ofList readings' = ofList readings := by
  have hnodup' : (readings'.map Prod.fst).Nodup := (h.map Prod.fst).nodup_iff.mp hnodup
  apply ext
  intro opcode
  apply Option.ext
  intro i
  rw [get?_ofList hnodup, get?_ofList hnodup', h.mem_iff]

/-- An opcode has an instruction if it is the key of an entry. -/
theorem mem_opcodes {readings : List (Byte × Instruction)} (h : List.Forall₂ Gives entries readings) :
    opcode ∈ readings.map Prod.fst ↔
      ∃ entry ∈ entries, Config.integer entry.1 = .ok (opcode : Int) := by
  induction h with
  | nil => simp
  | @cons entry r rest readings hr _ ih =>
    have hkey : opcode = r.1 ↔ Config.integer entry.1 = .ok (opcode : Int) := by
      rw [hr.key, Except.ok.injEq, Int.natCast_inj, UInt8.toNat_inj, eq_comm]
    simp only [List.map_cons, List.mem_cons, ih, hkey, exists_eq_or_imp]

/-- Well-formed entries are those that give instructions to distinct opcodes. -/
theorem wellFormed_iff :
    WellFormed entries ↔
      ∃ readings, List.Forall₂ Gives entries readings ∧ (readings.map Prod.fst).Nodup := by
  constructor
  · intro h
    induction entries with
    | nil => exact ⟨[], .nil, .nil⟩
    | cons entry rest ih =>
      obtain ⟨hhead, htail⟩ := List.pairwise_cons.mp h.distinct
      obtain ⟨readings, hgives, hnodup⟩ := ih
        ⟨fun e he => h.keys e (.tail _ he), htail, fun e he => h.bodies e (.tail _ he)⟩
      obtain ⟨n, hn, h₀, h₁⟩ := h.keys entry (.head _)
      obtain ⟨fields, hfields, ⟨mnemonic, hmnemonic⟩, mode, hmode⟩ := h.bodies entry (.head _)
      have hbyte : ((byte n : Byte) : Int) = n := by
        rw [val_byte]
        omega
      have hkey : Config.integer entry.1 = .ok ((byte n : Byte) : Int) := by rw [hn, hbyte]
      refine ⟨(byte n, ⟨mnemonic, mode⟩) :: readings,
        .cons ⟨hkey, fields, hfields, hmnemonic, hmode⟩ hgives, ?_⟩
      rw [List.map_cons, List.nodup_cons, mem_opcodes hgives]
      refine ⟨?_, hnodup⟩
      rintro ⟨other, hother, hsame⟩
      exact hhead other hother (hkey.trans hsame.symm)
  · rintro ⟨readings, hgives, hnodup⟩
    induction hgives with
    | nil => exact ⟨by simp, .nil, by simp⟩
    | @cons entry r rest readings hr hgives ih =>
      rw [List.map_cons, List.nodup_cons, mem_opcodes hgives] at hnodup
      obtain ⟨hkeys, hdistinct, hbodies⟩ := ih hnodup.2
      obtain ⟨fields, hfields, hmnemonic, hmode⟩ := hr.body
      refine ⟨List.forall_mem_cons.mpr ⟨?_, hkeys⟩, .cons ?_ hdistinct,
        List.forall_mem_cons.mpr ⟨⟨fields, hfields, ⟨_, hmnemonic⟩, _, hmode⟩, hbodies⟩⟩
      · have := r.1.toNat_lt
        exact ⟨r.1, hr.key, by omega, by omega⟩
      · intro other hother hsame
        exact hnodup.1 ⟨other, hother, hsame.symm.trans hr.key⟩

variable {document document' entries' : List (Data × Data)}

theorem parse_eq (h : Data.lookup "opcodes" document = some (.map entries)) :
    parse document = entries.foldlM (fun t entry => parseEntry t entry.1 entry.2) empty := by
  rw [parse, Config.subsection, h]
  rfl

theorem parse_ok (h : Data.lookup "opcodes" document = some (.map entries)) :
    parse document = .ok t ↔
      ∃ readings, List.Forall₂ Gives entries readings ∧ (readings.map Prod.fst).Nodup ∧
        t = ofList readings := by
  rw [parse_eq h, foldlM_ok]
  simp only [get?_empty, implies_true, true_and]
  rfl

/-- The order of the entries does not matter. -/
theorem parse_of_perm (h : Data.lookup "opcodes" document = some (.map entries))
    (h' : Data.lookup "opcodes" document' = some (.map entries')) (hperm : entries.Perm entries')
    (ht : parse document = .ok t) : parse document' = .ok t := by
  obtain ⟨readings, hgives, hnodup, rfl⟩ := (parse_ok h).mp ht
  obtain ⟨readings', hgives', hreadings⟩ := List.perm_comp_forall₂ hperm.symm hgives
  refine (parse_ok h').mpr ⟨readings', hgives', ?_, ?_⟩
  · exact (hreadings.map Prod.fst).nodup_iff.mpr hnodup
  · exact (ofList_perm hnodup hreadings.symm).symm

/-- A table is read if and only if the entries are well-formed; it lists what they give, one by one.
Else the error is about the configuration, unless it would show a number too long to be written. The
order of the entries does not matter. -/
theorem parse_exact (h : Data.lookup "opcodes" document = some (.map entries)) :
    ((∃ t, parse document = .ok t) ↔ WellFormed entries) ∧
    (∀ t, parse document = .ok t →
      ∃ readings, List.Forall₂ Gives entries readings ∧ t.toList.Perm readings) ∧
    (∀ e, parse document = .error e → e.kind = .config ∨
      e.kind = .value ∧
        ∃ entry ∈ entries, entry.1.isWritable = false ∨ entry.2.isWritable = false) ∧
    ∀ document' entries', Data.lookup "opcodes" document' = some (.map entries') →
      entries.Perm entries' → (parse document').toOption = (parse document).toOption := by
  refine ⟨?_, ?_, ?_, ?_⟩
  · rw [wellFormed_iff]
    constructor
    · rintro ⟨t, ht⟩
      obtain ⟨readings, hgives, hnodup, -⟩ := (parse_ok h).mp ht
      exact ⟨readings, hgives, hnodup⟩
    · rintro ⟨readings, hgives, hnodup⟩
      exact ⟨_, (parse_ok h).mpr ⟨readings, hgives, hnodup, rfl⟩⟩
  · intro t ht
    obtain ⟨readings, hgives, hnodup, rfl⟩ := (parse_ok h).mp ht
    exact ⟨readings, hgives, toList_ofList hnodup⟩
  · intro e he
    rw [parse_eq h] at he
    rcases foldlM_concerns he with hconfig | ⟨hvalue, value, hmem, hw⟩
    · exact .inl hconfig
    · obtain ⟨entry, hentry, hpart⟩ := List.mem_flatMap.mp hmem
      refine .inr ⟨hvalue, entry, hentry, ?_⟩
      rcases List.mem_pair.mp hpart with rfl | rfl
      · exact .inl hw
      · exact .inr hw
  · intro document' entries' h' hperm
    cases ht : parse document with
    | ok t => rw [parse_of_perm h h' hperm ht]
    | error e =>
      cases ht' : parse document' with
      | ok t => simp [parse_of_perm h' h hperm.symm ht'] at ht
      | error e' => rfl

/-- Names count in either case. Keys in two notations are one opcode if they are one number. -/
theorem parse_exact_notations :
    let nop : Data := .map [(.text "mnemonic", .text "nop"), (.text "mode", .text "Implicit")]
    let read : List (Data × Data) := [(.text "$EA", nop), (.int 0xEB, nop)]
    let refused : List (Data × Data) := [(.text "$EA", nop), (.int 0xEA, nop)]
    Data.lookup "opcodes" [(.text "opcodes", .map read)] = some (.map read) ∧
      Data.lookup "opcodes" [(.text "opcodes", .map refused)] = some (.map refused) ∧
      (∃ t, parse [(.text "opcodes", .map read)] = .ok t) ∧
      ¬ ∃ t, parse [(.text "opcodes", .map refused)] = .ok t := by
  intro nop read refused
  have hread : Data.lookup "opcodes" [(.text "opcodes", .map read)] = some (.map read) := rfl
  have hrefused : Data.lookup "opcodes" [(.text "opcodes", .map refused)] = some (.map refused) := rfl
  have hea : Config.integer (.text "$EA") = .ok 0xEA := rfl
  refine ⟨hread, hrefused, (parse_exact hread).1.mpr ⟨?_, ?_, ?_⟩, fun ht => ?_⟩
  · intro entry hentry
    rcases List.mem_pair.mp hentry with rfl | rfl
    · exact ⟨0xEA, hea, by decide, by decide⟩
    · exact ⟨0xEB, rfl, by decide, by decide⟩
  · refine List.pairwise_pair.mpr ?_
    rw [hea]
    nofun
  · intro entry hentry
    refine ⟨[(.text "mnemonic", .text "nop"), (.text "mode", .text "Implicit")], ?_,
      ⟨.nop, _, _, rfl, rfl, rfl⟩, .implicit, _, _, rfl, rfl, rfl⟩
    rcases List.mem_pair.mp hentry with rfl | rfl <;> rfl
  · have hwell := (parse_exact hrefused).1.mp ht
    exact List.rel_of_pairwise_cons hwell.distinct (.head _) hea

/-- A name that is a number too long to be written: the error is not one about the configuration. -/
theorem parse_unwritable :
    let fields : List (Data × Data) :=
      [(.text "mnemonic", .int (Int.pow 16 3572)), (.text "mode", .text "IMPLICIT")]
    ∃ e, parse [(.text "opcodes", .map [(.text "0x01", .map fields)])] = .error e ∧
      e.kind ≠ .config := by
  have hlong : (Data.int (Int.pow 16 3572)).isWritable = false := by decide +kernel
  generalize Int.pow 16 3572 = n at hlong ⊢
  intro fields
  have hkey : Config.integer (.text "0x01") = .ok ((1 : Byte) : Int) := rfl
  have hinstruction : parseInstruction 1 fields = .error .longNumber := by
    simp [fields, parseInstruction, nameUnder, Data.lookup, Data.text?, hlong, Config.refuse]
  have hentry : parseEntry empty (.text "0x01") (.map fields) = .error .longNumber := by
    rw [parseEntry_eq hkey, get?_empty]
    simp [hinstruction, Except.map]
  refine ⟨.longNumber, ?_, nofun⟩
  rw [parse_eq rfl, List.foldlM_cons, hentry]
  rfl

end OpcodeTable

end Micro6502
