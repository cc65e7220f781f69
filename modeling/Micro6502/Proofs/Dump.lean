import Mathlib.Data.List.Forall2
import Micro6502.HexDump
import Micro6502.Proofs.Hexadecimal
import Micro6502.Proofs.Layout

namespace Micro6502.HexDump

open Text

def Row (line : List Char) (row : List (List Char)) : Prop :=
  ∃ front comment, line = front ++ comment ∧ ';' ∉ front ∧ (∀ c ∈ comment.head?, c = ';') ∧
    Spaced row front

/-- The rows of words that make up a text, line by line. -/
def Laid (text : List Char) (rows : List (List (List Char))) : Prop :=
  ∃ ls, Ruled ls text ∧ List.Forall₂ Row ls rows

def row (line : List Char) : List (List Char) := words (code line)

theorem code_append {front comment : List Char} (hfront : ';' ∉ front)
    (hcomment : ∀ c ∈ comment.head?, c = ';') : code (front ++ comment) = front := by
  have hall : ∀ c ∈ front, decide (c ≠ ';') = true := by
    intro c hc
    rw [decide_eq_true_eq]
    rintro rfl
    exact hfront hc
  rw [code, List.takeWhile_append_of_pos hall]
  cases comment with
  | nil => simp
  | cons c comment =>
    cases hcomment c rfl
    simp

theorem row_iff {line : List Char} {ws : List (List Char)} : Row line ws ↔ row line = ws := by
  constructor
  · rintro ⟨front, comment, rfl, hfront, hcomment, hspaced⟩
    rw [row, code_append hfront hcomment]
    exact spaced_iff.mp hspaced
  · intro h
    refine ⟨code line, line.dropWhile (· ≠ ';'), List.takeWhile_append_dropWhile.symm, ?_, ?_,
      spaced_iff.mpr h⟩
    · intro hmark
      have hall : (code line).all (· ≠ ';') = true := List.all_takeWhile
      simpa using List.all_eq_true.mp hall _ hmark
    · intro c hc
      have hstop := List.head?_dropWhile_not (· ≠ ';') line
      rw [hc] at hstop
      simpa using hstop

theorem laid_iff {text : List Char} {rows : List (List (List Char))} :
    Laid text rows ↔ (lines text).map row = rows := by
  have hrow : Row = fun line ws => row line = ws := by
    funext line ws
    exact propext row_iff
  have hrows (ls : List (List Char)) : List.Forall₂ Row ls rows ↔ ls.map row = rows := by
    rw [hrow, ← List.forall₂_map_left_iff, List.forall₂_eq_eq_eq]
  constructor
  · rintro ⟨ls, hruled, hall⟩
    rw [ruled_iff.mp hruled]
    exact (hrows ls).mp hall
  · intro h
    exact ⟨lines text, ruled_iff.mpr rfl, (hrows _).mpr h⟩

def Spells (word : List Char) (b : Byte) : Prop :=
  word.map Char.toUpper = (Hex.upper 2 b).toList

def Label (word : List Char) : Prop := word.getLast? = some ':'

instance (word : List Char) : Decidable (Label word) := inferInstanceAs (Decidable (_ = _))

theorem isLabel_eq (word : List Char) : isLabel word = decide (Label word) :=
  beq_eq_decide _ _

def Fine (word : List Char) : Prop :=
  Label word ∨
    ∃ high low, word = [high, low] ∧ high ∈ Hex.digits ∧ low ∈ Hex.digits

theorem spells_iff {word : List Char} {b : Byte} : Spells word b ↔ Hex.pair? word = some b :=
  Hex.pair?_eq_some.symm

theorem Spells.fine {word : List Char} {b : Byte} (h : Spells word b) : Fine word :=
  .inr (Hex.isSome_pair?.mp ⟨b, spells_iff.mp h⟩)

/-- No digit is a colon. -/
theorem Spells.not_label {word : List Char} {b : Byte} (h : Spells word b) : ¬ Label word := by
  obtain ⟨high, low, rfl, -, hlow⟩ := Hex.isSome_pair?.mp ⟨b, spells_iff.mp h⟩
  have hcolon : ':' ∉ Hex.digits := by decide
  have hne : low ≠ ':' := by
    rintro rfl
    exact hcolon hlow
  simpa [Label] using hne

theorem Fine.spells {word : List Char} (h : Fine word) (hlabel : ¬ Label word) :
    ∃ b, Spells word b := by
  rcases h with h | h
  · exact absurd h hlabel
  · obtain ⟨b, hb⟩ := Hex.isSome_pair?.mpr h
    exact ⟨b, spells_iff.mpr hb⟩

theorem wordBytes_label {word : List Char} (h : Label word) (n : Nat) (ws : List (List Char)) :
    wordBytes n (word :: ws) = wordBytes n ws := by
  rw [wordBytes, isLabel_eq, if_pos (decide_eq_true h)]

theorem wordBytes_spells {word : List Char} {b : Byte} (h : Spells word b) (n : Nat)
    (ws : List (List Char)) :
    wordBytes n (word :: ws) = (wordBytes n ws).map (b :: ·) := by
  rw [wordBytes, isLabel_eq, if_neg (by simpa using h.not_label), spells_iff.mp h]
  cases wordBytes n ws <;> rfl

theorem wordBytes_fault {word : List Char} (h : ¬ Fine word) (n : Nat) (ws : List (List Char)) :
    wordBytes n (word :: ws) = .error (.notHexPair (String.ofList word) n) := by
  have hlabel : ¬ Label word := fun hlabel => h (.inl hlabel)
  have hpair : Hex.pair? word = none := by
    cases hb : Hex.pair? word with
    | none => rfl
    | some b => exact absurd (spells_iff.mpr hb).fine h
  rw [wordBytes, isLabel_eq, if_neg (by simpa using hlabel), hpair]

/-- Where all words are fine, the bytes are those that the words other than labels spell. -/
theorem wordBytes_fine {ws : List (List Char)} (h : ∀ w ∈ ws, Fine w) (n : Nat) :
    ∃ bs, wordBytes n ws = .ok bs ∧ List.Forall₂ Spells (ws.filter (¬ Label ·)) bs := by
  induction ws with
  | nil => exact ⟨[], rfl, .nil⟩
  | cons w ws ih =>
    obtain ⟨bs, hbs, hspells⟩ := ih fun v hv => h v (List.mem_cons_of_mem w hv)
    by_cases hlabel : Label w
    · refine ⟨bs, (wordBytes_label hlabel n ws).trans hbs, ?_⟩
      rwa [List.filter_cons_of_neg (by simp [hlabel])]
    · obtain ⟨b, hb⟩ := (h w List.mem_cons_self).spells hlabel
      refine ⟨b :: bs, ?_, ?_⟩
      · rw [wordBytes_spells hb, hbs]
        rfl
      · rw [List.filter_cons_of_pos (by simp [hlabel])]
        exact .cons hb hspells

theorem wordBytes_first {before after : List (List Char)} {word : List Char}
    (hbefore : ∀ w ∈ before, Fine w) (hword : ¬ Fine word) (n : Nat) :
    wordBytes n (before ++ word :: after) = .error (.notHexPair (String.ofList word) n) := by
  induction before with
  | nil => exact wordBytes_fault hword n after
  | cons w before ih =>
    have hrest := ih fun v hv => hbefore v (List.mem_cons_of_mem w hv)
    by_cases hlabel : Label w
    · rw [List.cons_append, wordBytes_label hlabel, hrest]
    · obtain ⟨b, hb⟩ := (hbefore w List.mem_cons_self).spells hlabel
      rw [List.cons_append, wordBytes_spells hb, hrest]
      rfl

theorem lineBytes_ok {n : Nat} {line : List Char} {bs : List Byte}
    (h : wordBytes n (row line) = .ok bs) (ls : List (List Char)) :
    lineBytes n (line :: ls) = (lineBytes (n + 1) ls).map (bs ++ ·) := by
  rw [row] at h
  rw [lineBytes, h]
  change (lineBytes (n + 1) ls >>= _) = _
  cases lineBytes (n + 1) ls <;> rfl

theorem lineBytes_error {n : Nat} {line : List Char} {e : Fault}
    (h : wordBytes n (row line) = .error e) (ls : List (List Char)) :
    lineBytes n (line :: ls) = .error e := by
  rw [row] at h
  rw [lineBytes, h]
  rfl

theorem lineBytes_fine {ls : List (List Char)} (h : ∀ ws ∈ ls.map row, ∀ w ∈ ws, Fine w) (n : Nat) :
    ∃ bs, lineBytes n ls = .ok bs ∧
      List.Forall₂ Spells ((ls.map row).flatten.filter (¬ Label ·)) bs := by
  induction ls generalizing n with
  | nil => exact ⟨[], rfl, .nil⟩
  | cons line ls ih =>
    rw [List.map_cons] at h ⊢
    obtain ⟨bs, hbs, hspells⟩ := wordBytes_fine (h (row line) List.mem_cons_self) n
    obtain ⟨rest, hrest, hmore⟩ := ih (fun ws hws => h ws (List.mem_cons_of_mem _ hws)) (n + 1)
    refine ⟨bs ++ rest, ?_, ?_⟩
    · rw [lineBytes_ok hbs, hrest]
      rfl
    · rw [List.flatten_cons, List.filter_append]
      exact List.rel_append hspells hmore

/-- The first word at fault of the rows, and the number of its row. -/
def FirstFault (rows : List (List (List Char))) (number : Nat) (word : List Char) : Prop :=
  ∃ above before after below, rows = above ++ (before ++ word :: after) :: below ∧
    number = above.length + 1 ∧ (∀ ws ∈ above, ∀ w ∈ ws, Fine w) ∧ (∀ w ∈ before, Fine w) ∧
    ¬ Fine word

theorem lineBytes_first {ls : List (List Char)} {number : Nat} {word : List Char}
    (h : FirstFault (ls.map row) number word) (n : Nat) :
    lineBytes n ls = .error (.notHexPair (String.ofList word) (n + number - 1)) := by
  obtain ⟨above, before, after, below, hrows, rfl, habove, hbefore, hword⟩ := h
  -- down the rows above the fault, each of which is read and counted
  induction above generalizing ls n with
  | nil =>
    obtain ⟨line, ls, rfl, hrow, -⟩ := List.map_eq_cons_iff.mp hrows
    apply lineBytes_error
    rw [hrow]
    exact wordBytes_first hbefore hword n
  | cons ws above ih =>
    obtain ⟨line, ls, rfl, rfl, hrest⟩ := List.map_eq_cons_iff.mp hrows
    obtain ⟨bs, hbs, -⟩ := wordBytes_fine (habove (row line) List.mem_cons_self) n
    rw [lineBytes_ok hbs, ih (n + 1) hrest fun v hv => habove v (List.mem_cons_of_mem _ hv)]
    simp only [Except.map, List.length_cons]
    congr 2
    omega

/-- A list is all of a kind, or has a first element that is not. -/
theorem forall_or_first {α : Type} (p : α → Prop) (xs : List α) :
    (∀ x ∈ xs, p x) ∨ ∃ before x after, xs = before ++ x :: after ∧ (∀ y ∈ before, p y) ∧ ¬ p x := by
  induction xs with
  | nil => exact .inl (by simp)
  | cons x xs ih =>
    by_cases hx : p x
    · rcases ih with hall | ⟨before, y, after, rfl, hbefore, hy⟩
      · exact .inl (List.forall_mem_cons.mpr ⟨hx, hall⟩)
      · exact .inr ⟨x :: before, y, after, rfl, List.forall_mem_cons.mpr ⟨hx, hbefore⟩, hy⟩
    · exact .inr ⟨[], x, xs, rfl, by simp, hx⟩

theorem fine_or_firstFault (rows : List (List (List Char))) :
    (∀ ws ∈ rows, ∀ w ∈ ws, Fine w) ∨ ∃ number word, FirstFault rows number word := by
  rcases forall_or_first (fun ws => ∀ w ∈ ws, Fine w) rows with
    hall | ⟨above, ws, below, rfl, habove, hws⟩
  · exact .inl hall
  · rcases forall_or_first Fine ws with hall | ⟨before, word, after, rfl, hbefore, hword⟩
    · exact absurd hall hws
    · exact .inr ⟨_, word, above, before, after, below, rfl, rfl, habove, hbefore, hword⟩

variable {text : List Char} {rows : List (List (List Char))}

theorem parse_fine (h : Laid text rows) (hfine : ∀ ws ∈ rows, ∀ w ∈ ws, Fine w) :
    ∃ bs, parse text = .ok bs ∧ List.Forall₂ Spells (rows.flatten.filter (¬ Label ·)) bs := by
  obtain rfl := laid_iff.mp h
  exact lineBytes_fine hfine 1

theorem parse_first (h : Laid text rows) {number : Nat} {word : List Char}
    (hfirst : FirstFault rows number word) :
    parse text = .error (.notHexPair (String.ofList word) number) := by
  obtain rfl := laid_iff.mp h
  have hparse := lineBytes_first hfirst 1
  rwa [Nat.add_sub_cancel_left] at hparse

/-- A line that gives the bytes: at most one label, then a word for each byte. -/
def Gives (line : List Char) (bs : List Byte) : Prop :=
  (∀ c ∈ line, isLineBreak c = false) ∧ ∃ labels pairs, Row line (labels ++ pairs) ∧
    labels.length ≤ 1 ∧ (∀ w ∈ labels, Label w) ∧ List.Forall₂ Spells pairs bs

/-- The ways to write bytes as a dump, with any breaks between its lines. -/
inductive Written : List Byte → List Char → Prop where
  | last {line : List Char} {bs : List Byte} (hline : Gives line bs) : Written bs line
  | line {line between text : List Char} {bs more : List Byte} (hline : Gives line bs)
      (hbetween : Break between) (rest : Written more text) :
      Written (bs ++ more) (line ++ (between ++ text))

theorem wordBytes_pairs {pairs : List (List Char)} {bs : List Byte}
    (h : List.Forall₂ Spells pairs bs) (n : Nat) : wordBytes n pairs = .ok bs := by
  induction h with
  | nil => rfl
  | cons hb rest ih =>
    rw [wordBytes_spells hb, ih]
    rfl

theorem Gives.wordBytes_row {line : List Char} {bs : List Byte} (h : Gives line bs) (n : Nat) :
    wordBytes n (row line) = .ok bs := by
  obtain ⟨-, labels, pairs, hrow, hlength, hlabels, hpairs⟩ := h
  rw [row_iff.mp hrow]
  match labels, hlength with
  | [], _ => exact wordBytes_pairs hpairs n
  | [label], _ =>
    rw [List.singleton_append, wordBytes_label (hlabels label List.mem_cons_self)]
    exact wordBytes_pairs hpairs n

/-- A line break in front of a text that gives bytes does not change them. Between a carriage return
and a line feed there is no line, and it would have had no words. -/
theorem lineBytes_between {between cs : List Char} {bs more : List Byte} {line : List Char}
    (hline : Gives line bs) (hbetween : Break between)
    (hrest : ∀ n, lineBytes n (lines cs) = .ok more) (n : Nat) :
    lineBytes n (lines (line ++ (between ++ cs))) = .ok (bs ++ more) := by
  have hcut (ls : List (List Char)) (hbehind : lines (between ++ cs) = [] :: ls)
      (hls : lineBytes (n + 1) ls = .ok more) :
      lineBytes n (lines (line ++ (between ++ cs))) = .ok (bs ++ more) := by
    rw [lines_line hline.1 hbehind, List.append_nil, lineBytes_ok (hline.wordBytes_row n), hls]
    rfl
  by_cases halone : between = ['\r'] → cs.head? ≠ some '\n'
  · exact hcut (lines cs) (lines_between hbetween halone) (hrest (n + 1))
  · simp only [Classical.not_imp, ne_eq, not_not] at halone
    obtain ⟨rfl, hfeed⟩ := halone
    obtain ⟨tail, rfl⟩ := List.head?_eq_some_iff.mp hfeed
    refine hcut (lines tail) rfl ?_
    have hnone : wordBytes n (row []) = .ok [] := rfl
    have hblank := hrest n
    rw [lines_break (by decide) (by simp), lineBytes_ok hnone] at hblank
    cases hls : lineBytes (n + 1) (lines tail) with
    | error e =>
      rw [hls] at hblank
      cases hblank
    | ok found =>
      rw [hls] at hblank
      exact hblank

theorem Written.lineBytes_eq {bs : List Byte} (h : Written bs text) (n : Nat) :
    lineBytes n (lines text) = .ok bs := by
  induction h generalizing n with
  | @last line bs hline =>
    by_cases hne : line = []
    · subst hne
      have hbytes := hline.wordBytes_row n
      cases hbytes
      rfl
    · rw [lines_last hne hline.1, lineBytes_ok (hline.wordBytes_row n)]
      simp [lineBytes, Except.map]
  | line hline hbetween rest ih => exact lineBytes_between hline hbetween ih n

theorem Written.parse_eq {bs : List Byte} (h : Written bs text) : parse text = .ok bs :=
  h.lineBytes_eq 1

theorem digit_plain {c : Char} (h : c ∈ Hex.digits) :
    isBlank c = false ∧ isLineBreak c = false ∧ c ≠ ';' := by
  obtain ⟨n, hn⟩ := Hex.mem_digits.mp h
  rw [Hex.digit?_eq_some] at hn
  refine ⟨?_, ?_, ?_⟩
  · simp only [isBlank, Bool.or_eq_false_iff, Bool.and_eq_false_iff, decide_eq_false_iff_not,
      beq_eq_false_iff_ne, ne_eq]
    omega
  · simp only [isLineBreak, Bool.or_eq_false_iff, Bool.and_eq_false_iff, decide_eq_false_iff_not,
      beq_eq_false_iff_ne, ne_eq]
    omega
  · rintro rfl
    have hcode : ';'.toNat = 0x3B := rfl
    omega

/-- Bytes with single spaces between them. -/
theorem written_upper (bs : List Byte) :
    Written bs (" ".intercalate (bs.map fun (b : Byte) => Hex.upper 2 b)).toList := by
  let word (b : Byte) : List Char := (Hex.upper 2 b).toList
  have hspells (b : Byte) : Spells (word b) b := spells_iff.mpr (Hex.pair?_upper b)
  have hdigits : ∀ w ∈ bs.map word, w ≠ [] ∧ ∀ c ∈ w, c ∈ Hex.digits := by
    intro w hw
    obtain ⟨b, -, rfl⟩ := List.mem_map.mp hw
    obtain ⟨high, low, hparts, hhigh, hlow⟩ :=
      Hex.isSome_pair?.mp ⟨b, spells_iff.mp (hspells b)⟩
    rw [hparts]
    simp [hhigh, hlow]
  have hchars : ∀ c ∈ [' '].intercalate (bs.map word), isLineBreak c = false ∧ c ≠ ';' := by
    intro c hc
    rcases mem_intercalate hc with rfl | ⟨w, hw, hc⟩
    · decide
    · exact (digit_plain ((hdigits w hw).2 c hc)).2
  have htext : (" ".intercalate (bs.map fun (b : Byte) => Hex.upper 2 b)).toList =
      [' '].intercalate (bs.map word) := by
    rw [String.toList_intercalate, List.map_map]
    rfl
  rw [htext]
  refine .last ⟨fun c hc => (hchars c hc).1, [], bs.map word, ?_, by simp, by simp, ?_⟩
  · refine ⟨_, [], (List.append_nil _).symm, fun hmark => (hchars _ hmark).2 rfl, by simp, ?_⟩
    exact spaced_intercalate fun w hw =>
      ⟨(hdigits w hw).1, fun c hc => (digit_plain ((hdigits w hw).2 c hc)).1⟩
  · rw [List.forall₂_map_left_iff, List.forall₂_same]
    exact fun b _ => hspells b

/-- Dumps are read back, however they are written, and a text is refused for its first word that is
neither a label nor two digits. -/
theorem parse_dump (text : List Char) :
    (∀ bytes, Written bytes text → parse text = .ok bytes) ∧
      ∃ rows, (∀ rows', Laid text rows' ↔ rows' = rows) ∧
        ((∃ e, parse text = .error e) ↔ ∃ ws ∈ rows, ∃ w ∈ ws, ¬ Fine w) ∧
        ∀ e, parse text = .error e → e.kind = .value ∧
          ∃ number word, FirstFault rows number word ∧ e.message =
            s!"Invalid byte '{String.ofList word}' on line {number}: expected two hex digits" := by
  have hlaid : Laid text ((lines text).map row) := laid_iff.mpr rfl
  refine ⟨fun bytes h => h.parse_eq, _, fun rows' => laid_iff.trans eq_comm, ?_⟩
  rcases fine_or_firstFault ((lines text).map row) with hfine | ⟨number, word, hfirst⟩
  · obtain ⟨bs, hbs, -⟩ := parse_fine hlaid hfine
    rw [hbs]
    refine ⟨⟨?_, ?_⟩, ?_⟩
    · rintro ⟨e, he⟩
      cases he
    · rintro ⟨ws, hws, w, hw, hfault⟩
      exact absurd (hfine ws hws w hw) hfault
    · intro e he
      cases he
  · rw [parse_first hlaid hfirst]
    refine ⟨⟨fun _ => ?_, fun _ => ⟨_, rfl⟩⟩, ?_⟩
    · obtain ⟨above, before, after, below, hrows, -, -, -, hfault⟩ := hfirst
      refine ⟨before ++ word :: after, ?_, word, by simp, hfault⟩
      rw [hrows]
      simp
    · intro e he
      cases he
      exact ⟨rfl, number, word, hfirst, rfl⟩

/-- A dump with a label, both cases, a comment, an empty line and three kinds of breaks. -/
theorem parse_dump_written :
    let text := "0600: a9 0D ; LDA\r\n\n\u3000ff;\u2028".toList
    Written [0xA9, 0x0D, 0xFF] text ∧ parse text = .ok [0xA9, 0x0D, 0xFF] := by
  intro text
  have unbroken {line : List Char} (h : line.all (!isLineBreak ·) = true) :
      ∀ c ∈ line, isLineBreak c = false :=
    fun c hc => by simpa using List.all_eq_true.mp h c hc
  have hfirst : Gives "0600: a9 0D ; LDA".toList [0xA9, 0x0D] := by
    refine ⟨unbroken (by decide), ["0600:".toList], ["a9".toList, "0D".toList], ?_, ?_⟩
    · exact row_iff.mpr (by decide)
    · exact ⟨by decide, by decide, .cons (spells_iff.mpr rfl) (.cons (spells_iff.mpr rfl) .nil)⟩
  have hsecond : Gives [] [] :=
    ⟨unbroken rfl, [], [], row_iff.mpr rfl, by decide, by simp, .nil⟩
  have hthird : Gives "\u3000ff;".toList [0xFF] := by
    refine ⟨unbroken (by decide), [], ["ff".toList], ?_, ?_⟩
    · exact row_iff.mpr (by decide)
    · exact ⟨by decide, by simp, .cons (spells_iff.mpr rfl) .nil⟩
  have hwritten : Written [0xA9, 0x0D, 0xFF] text :=
    .line hfirst .pair (.line hsecond (.single (c := '\n') rfl)
      (.line hthird (.single (c := '\u2028') rfl) (.last hsecond)))
  exact ⟨hwritten, (parse_dump text).1 _ hwritten⟩

/-- The labels of some rows are those at the heads and those behind. -/
theorem countP_label (rows : List (List (List Char))) :
    rows.flatten.countP (Label ·) =
      rows.countP (fun ws => ws.head?.any (Label ·)) +
        (rows.flatMap List.tail).countP (Label ·) := by
  induction rows with
  | nil => rfl
  | cons ws rows ih =>
    cases ws with
    | nil => simp [ih]
    | cons w ws =>
      have hhead : (w :: ws).head?.any (Label ·) = decide (Label w) := rfl
      simp only [List.flatten_cons, List.flatMap_cons, List.countP_append, List.countP_cons, ih,
        hhead, List.tail_cons]
      omega

/-- Every word but the labels gives one byte. So labels count as heads of lines only, and nothing is
lost, if and only if there are none behind. -/
theorem parse_length {bytes : List Byte} (hlaid : Laid text rows) (h : parse text = .ok bytes) :
    List.Forall₂ Spells (rows.flatten.filter (¬ Label ·)) bytes ∧
      bytes.length + rows.flatten.countP (Label ·) = rows.flatten.length ∧
      (bytes.length + rows.countP (fun ws => ws.head?.any (Label ·)) = rows.flatten.length ↔
        ∀ ws ∈ rows, ∀ w ∈ ws.tail, ¬ Label w) := by
  have hspells : List.Forall₂ Spells (rows.flatten.filter (¬ Label ·)) bytes := by
    rcases fine_or_firstFault rows with hfine | ⟨number, word, hfirst⟩
    · obtain ⟨bs, hbs, hspells⟩ := parse_fine hlaid hfine
      rw [h] at hbs
      cases hbs
      exact hspells
    · rw [parse_first hlaid hfirst] at h
      cases h
  have hcount : bytes.length + rows.flatten.countP (Label ·) = rows.flatten.length := by
    have hparts := List.length_eq_countP_add_countP (l := rows.flatten) (Label ·)
    have hbytes := hspells.length_eq
    rw [← List.countP_eq_length_filter] at hbytes
    simp only [decide_eq_true_eq] at hparts
    omega
  refine ⟨hspells, hcount, ?_⟩
  have hnone : (rows.flatMap List.tail).countP (Label ·) = 0 ↔
      ∀ ws ∈ rows, ∀ w ∈ ws.tail, ¬ Label w := by
    simp only [List.countP_eq_zero, decide_eq_true_eq]
    constructor
    · intro hall ws hws w hw
      exact hall w (List.mem_flatMap.mpr ⟨ws, hws, hw⟩)
    · intro hall w hw
      obtain ⟨ws, hws, hw⟩ := List.mem_flatMap.mp hw
      exact hall ws hws w hw
  rw [← hnone, ← hcount, countP_label]
  omega

/-- A dump whose label stands in front. -/
theorem parse_length_labelled :
    let text := "0600: a9 02\n; none\n85".toList
    let rows := [["0600:".toList, "a9".toList, "02".toList], [], ["85".toList]]
    Laid text rows ∧ parse text = .ok [0xA9, 0x02, 0x85] ∧
      [0xA9, 0x02, 0x85].length + rows.countP (fun ws => ws.head?.any (Label ·)) =
        rows.flatten.length := by
  intro text rows
  have hlaid : Laid text rows := laid_iff.mpr (by decide)
  have hparse : parse text = .ok [0xA9, 0x02, 0x85] := by rfl
  exact ⟨hlaid, hparse, (parse_length hlaid hparse).2.2.mpr (by decide)⟩

/-- A label behind the first word takes its byte with it. -/
theorem parse_drops :
    let text := "a9 02: 85".toList
    let rows := [["a9".toList, "02:".toList, "85".toList]]
    Laid text rows ∧ parse text = .ok [0xA9, 0x85] ∧
      ¬ [0xA9, 0x85].length + rows.countP (fun ws => ws.head?.any (Label ·)) = rows.flatten.length := by
  intro text rows
  exact ⟨laid_iff.mpr (by decide), by rfl, by decide⟩

end Micro6502.HexDump
