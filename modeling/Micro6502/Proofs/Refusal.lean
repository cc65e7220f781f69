import Micro6502.Proofs.TableEntries

namespace Micro6502

/-- What a message about a value shows: a number is never refused. -/
def Data.reported : Data → List Data
  | int _ => []
  | value => [value]

namespace Config

/-- The errors of a reader are about the configuration, unless one of these values is too long to
be written. -/
def Blames {α : Type} (reader : Except ConfigError α) (values : List Data) : Prop :=
  ∀ e, reader = .error e → e.Concerns values

namespace Blames

variable {α β : Type} {reader : Except ConfigError α} {next : α → Except ConfigError β}
  {values values' : List Data}

theorem mono (h : Blames reader values) (hsub : values ⊆ values') : Blames reader values' :=
  fun e he => (h e he).mono hsub

theorem ok (a : α) : Blames (.ok a) [] := nofun

theorem config {e : ConfigError} (hkind : e.kind = .config) :
    Blames (.error e : Except ConfigError α) values := by
  rintro _ ⟨⟩
  exact .inl hkind

/-- What follows is read only from what was accepted. -/
theorem bind (h : Blames reader values) (hnext : ∀ a, reader = .ok a → Blames (next a) values') :
    Blames (reader >>= next) (values ++ values') := by
  cases hreader : reader with
  | error e =>
    rintro _ ⟨⟩
    exact (h e hreader).mono (List.subset_append_left _ _)
  | ok a => exact (hnext a hreader).mono (List.subset_append_right _ _)

end Blames

theorem integer_blames (value : Data) : Blames (integer value) value.reported := by
  cases value with
  | int n => exact .ok n
  | _ => exact fun e he => integer_concerns he

def reportedUnder (entries : List (Data × Data)) (key : String) : List Data :=
  (Data.lookup key entries).elim [] Data.reported

theorem integerOr_blames (entries : List (Data × Data)) (key : String) (absent : Int) :
    Blames (integerOr entries key absent) (reportedUnder entries key) := by
  unfold integerOr reportedUnder
  cases Data.lookup key entries with
  | none => exact .ok absent
  | some value => exact integer_blames value

def fieldsUnder (entries : List (Data × Data)) (key : String) : List (Data × Data) :=
  match Data.lookup key entries with
  | some (.map fields) => fields
  | _ => []

theorem subsection_blames (entries : List (Data × Data)) (key : String) :
    Blames (subsection entries key) [] := by
  unfold subsection
  split
  · exact .ok _
  · exact .ok _
  · exact .ok _
  · exact .config rfl

theorem subsection_ok {entries fields : List (Data × Data)} {key : String}
    (h : subsection entries key = .ok fields) : fields = fieldsUnder entries key := by
  unfold subsection at h
  unfold fieldsUnder
  split at h <;> simp_all

/-- A section is read from its entries. -/
theorem subsection_bind_blames {α : Type} {entries : List (Data × Data)} {key : String}
    {reader : List (Data × Data) → Except ConfigError α} {values : List Data}
    (h : Blames (reader (fieldsUnder entries key)) values) :
    Blames (subsection entries key >>= reader) values :=
  (subsection_blames entries key).bind fun _ hfields => subsection_ok hfields ▸ h

end Config

namespace SystemConfig

open Config

variable (entries : List (Data × Data))

def reportedIo : List Data :=
  ["random_address", "keypress_address", "framebuffer_start", "framebuffer_end",
    "framebuffer_width"].flatMap (reportedUnder entries)

def reportedDisplay : List Data :=
  ["scale", "steps_per_tick", "tick_interval_ms"].flatMap (reportedUnder entries)

/-- What messages about registers show. Every name has to be written, a number too. -/
def reportedRegisters : List Data :=
  entries.flatMap fun (name, value) => name :: value.reported

def reportedInitial : List Data :=
  reportedRegisters (fieldsUnder entries "registers") ++
    ["pc", "sp"].flatMap (reportedUnder entries)

def reported : List Data :=
  reportedIo (fieldsUnder entries "io") ++ reportedDisplay (fieldsUnder entries "display") ++
    reportedUnder entries "program_origin" ++ reportedInitial (fieldsUnder entries "initial_state")

theorem parseIo_blames : Blames (parseIo entries) (reportedIo entries) := by
  have hfield := integerOr_blames entries
  refine .bind (hfield _ _) fun _ _ => .bind (hfield _ _) fun _ _ => .bind (hfield _ _) fun _ _ =>
    .bind (hfield _ _) fun screenEnd _ => .bind (hfield _ _) fun screenWidth _ => ?_
  dsimp only
  split
  · exact .config rfl
  · split
    · exact .config rfl
    · exact .ok _

theorem parseDisplay_blames : Blames (parseDisplay entries) (reportedDisplay entries) := by
  have hfield := integerOr_blames entries
  exact .bind (hfield _ _) fun _ _ => .bind (hfield _ _) fun _ _ => .bind (hfield _ _) fun _ _ =>
    .ok _

/-- One register is read after the other, and the names so far never matter. -/
theorem parseRegisters_blames : Blames (parseRegisters entries) (reportedRegisters entries) := by
  unfold parseRegisters
  generalize ([] : List (String × Int)) = registers
  induction entries generalizing registers with
  | nil => exact .ok _
  | cons entry rest ih =>
    obtain ⟨key, value⟩ := entry
    rw [List.foldlM_cons]
    change Blames _ ((key :: value.reported) ++ reportedRegisters rest)
    refine .bind ?_ fun registers' _ => ih registers'
    dsimp only
    cases hname : key.text? with
    | none =>
      have hlong : key.isWritable = false := by
        simpa [Data.text?] using hname
      rintro _ ⟨⟩
      exact .inr ⟨rfl, key, .head _, hlong⟩
    | some name =>
      have hput : Blames (integer value >>= fun n =>
          .ok (putRegister registers (Text.upper name) n)) (value.reported ++ []) :=
        (integer_blames value).bind fun _ _ => .ok _
      exact hput.mono (by simp)

theorem parseInitial_blames (origin : Int) :
    Blames (parseInitial origin entries) (reportedInitial entries) := by
  have hfield := integerOr_blames entries
  exact subsection_bind_blames (.bind (parseRegisters_blames _) fun _ _ =>
    .bind (hfield _ _) fun _ _ => .bind (hfield _ _) fun _ _ => .ok _)

/-- What names the file of the opcode table; absent, it counts as null. -/
def tableName : Data :=
  (Data.lookup "opcode_table" entries).getD .null

/-- The file of the opcode table would have to be found from a directory, but what names it is no
text. -/
def Misnamed (base : Option String) : Prop :=
  (∃ dir, base = some dir ∧ dir ≠ "") ∧ tableName entries ≠ .null ∧
    ∀ path, tableName entries ≠ .text path

variable {entries} {base : Option String} {e : ConfigError}

theorem tablePath_error {value : Data} :
    tablePath base value = .error e ↔
      ((∃ dir, base = some dir ∧ dir ≠ "") ∧ value ≠ .null ∧ ∀ path, value ≠ .text path) ∧
        e = .notPath value := by
  cases base with
  | none => cases value <;> simp [tablePath]
  | some dir =>
    by_cases hdir : dir = ""
    · cases value <;> simp [tablePath, hdir]
    · cases value <;> simp [tablePath, hdir, eq_comm]

/-- Behind the name of the opcode table, a configuration is refused as its sections are. -/
theorem parse_blames {opcodeTable : Data}
    (h : tablePath base (tableName entries) = .ok opcodeTable) :
    Blames (parse entries base) (reported entries) := by
  change Blames (tablePath base (tableName entries) >>= _) _
  rw [h]
  change Blames (subsection entries "io" >>= _) _
  refine .mono (subsection_bind_blames (.bind (parseIo_blames _) fun _ _ =>
    subsection_bind_blames (.bind (parseDisplay_blames _) fun _ _ =>
      .bind (integerOr_blames _ _ _) fun origin _ =>
        subsection_bind_blames (.bind (parseInitial_blames _ origin) fun _ _ => .ok _)))) ?_
  simp [reported]

/-- A configuration is accepted, with a screen that is not empty, or refused with an error about
the configuration, unless the opcode table is misnamed or a message has to show a number that is too
long to be written. -/
theorem parse_outcome (entries : List (Data × Data)) (base : Option String) :
    (∃ c, parse entries base = .ok c ∧ ¬ Misnamed entries base ∧
      1 ≤ c.io.screenWidth ∧ c.io.screenStart ≤ c.io.screenEnd) ∨
    (∃ e, parse entries base = .error e ∧ ¬ Misnamed entries base ∧ e.kind = .config) ∨
    (∃ e, parse entries base = .error e ∧ ¬ Misnamed entries base ∧ e.kind = .value ∧
      ∃ value ∈ reported entries, value.isWritable = false) ∨
    (parse entries base = .error (.notPath (tableName entries)) ∧ Misnamed entries base) := by
  cases hname : tablePath base (tableName entries) with
  | error e =>
    obtain ⟨hmisnamed, rfl⟩ := tablePath_error.mp hname
    refine .inr (.inr (.inr ⟨?_, hmisnamed⟩))
    exact congrArg (· >>= _) hname
  | ok opcodeTable =>
    have hnamed : ¬ Misnamed entries base := by
      intro hmisnamed
      have := tablePath_error.mpr ⟨hmisnamed, rfl⟩
      cases hname.symm.trans this
    cases hparse : parse entries base with
    | ok c =>
      obtain ⟨hrange, hwidth⟩ := parse_screen hparse
      exact .inl ⟨c, rfl, hnamed, hwidth, hrange⟩
    | error e =>
      rcases parse_blames hname e hparse with hconfig | ⟨hvalue, hlong⟩
      · exact .inr (.inl ⟨e, rfl, hnamed, hconfig⟩)
      · exact .inr (.inr (.inl ⟨e, rfl, hnamed, hvalue, hlong⟩))

/-- A number for the name of the opcode table: the error is not one about the configuration. -/
theorem parse_numbered :
    ∃ e, parse [(.text "opcode_table", .int 5)] (some "/base") = .error e ∧ e.kind ≠ .config ∧
      e.message = "expected str, bytes or os.PathLike object, not int" :=
  ⟨.notPath (.int 5), rfl, nofun, rfl⟩

/-- The origin may be any number, but inside a list a long one cannot even be reported. -/
example :
    (match parse [(.text "program_origin", .list [.int (Int.pow 10 4300)])] none with
      | .error e => some e.kind
      | .ok _ => none) = some .value := by
  decide +kernel

end SystemConfig

end Micro6502
