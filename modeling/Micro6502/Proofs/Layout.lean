import Micro6502.Text.Blank

namespace Micro6502.Text

/-- The words of a text from left to right. Each goes on up to a blank or the end. -/
inductive Spaced : List (List Char) → List Char → Prop where
  | nil : Spaced [] []
  | blank {c : Char} {ws : List (List Char)} {cs : List Char} (hc : isBlank c = true)
      (rest : Spaced ws cs) : Spaced ws (c :: cs)
  | word {w : List Char} {ws : List (List Char)} {cs : List Char} (hne : w ≠ [])
      (hw : ∀ c ∈ w, isBlank c = false) (hend : ∀ c ∈ cs.head?, isBlank c = true)
      (rest : Spaced ws cs) : Spaced (w :: ws) (w ++ cs)

theorem words_blank {c : Char} (hc : isBlank c = true) (cs : List Char) :
    words (c :: cs) = words cs := by
  have hcut := List.splitOnP_append_cons (p := isBlank) [] cs hc
  rw [List.nil_append] at hcut
  simp [words, hcut]

theorem words_word {w cs : List Char} (hne : w ≠ []) (hw : ∀ c ∈ w, isBlank c = false)
    (hend : ∀ c ∈ cs.head?, isBlank c = true) : words (w ++ cs) = w :: words cs := by
  have hsingle : w.splitOnP isBlank = [w] :=
    List.splitOnP_eq_singleton fun c hc => by simp [hw c hc]
  cases cs with
  | nil => simp [words, hsingle, hne]
  | cons c cs =>
    have hc : isBlank c = true := hend c rfl
    rw [words_blank hc]
    simp [words, List.splitOnP_append_cons w cs hc, hsingle, hne]

/-- A letter in front belongs to the first word, or is one. -/
theorem Spaced.letter {ws : List (List Char)} {cs : List Char} (h : Spaced ws cs) {c : Char}
    (hc : isBlank c = false) : ∃ ws, Spaced ws (c :: cs) := by
  have halone : ∀ d ∈ [c], isBlank d = false := by
    intro d hd
    rwa [List.mem_singleton.mp hd]
  cases h with
  | nil => exact ⟨[[c]], .word (by simp) halone (by simp) .nil⟩
  | blank hd rest =>
    refine ⟨_, .word (List.cons_ne_nil c []) halone ?_ (.blank hd rest)⟩
    rintro _ ⟨⟩
    exact hd
  | @word w ws cs hne hw hend rest =>
    refine ⟨_, .word (List.cons_ne_nil c w) ?_ hend rest⟩
    intro d hd
    rcases List.mem_cons.mp hd with rfl | hd
    · exact hc
    · exact hw d hd

theorem exists_spaced (cs : List Char) : ∃ ws, Spaced ws cs := by
  induction cs with
  | nil => exact ⟨[], .nil⟩
  | cons c cs ih =>
    obtain ⟨ws, h⟩ := ih
    cases hc : isBlank c with
    | true => exact ⟨ws, .blank hc h⟩
    | false => exact h.letter hc

theorem Spaced.words_eq {ws : List (List Char)} {cs : List Char} (h : Spaced ws cs) :
    words cs = ws := by
  induction h with
  | nil => rfl
  | blank hc rest ih => rw [words_blank hc, ih]
  | word hne hw hend rest ih => rw [words_word hne hw hend, ih]

theorem spaced_iff {ws : List (List Char)} {cs : List Char} : Spaced ws cs ↔ words cs = ws := by
  constructor
  · exact Spaced.words_eq
  · rintro rfl
    obtain ⟨ws, h⟩ := exists_spaced cs
    rwa [h.words_eq]

/-- Words with single spaces between them are these words. -/
theorem spaced_intercalate {ws : List (List Char)}
    (h : ∀ w ∈ ws, w ≠ [] ∧ ∀ c ∈ w, isBlank c = false) : Spaced ws ([' '].intercalate ws) := by
  induction ws with
  | nil => exact .nil
  | cons w ws ih =>
    obtain ⟨hne, hw⟩ := h w List.mem_cons_self
    have hrest := ih fun v hv => h v (List.mem_cons_of_mem w hv)
    cases ws with
    | nil =>
      have hlast : Spaced [w] (w ++ []) := .word hne hw (by simp) .nil
      rw [List.append_nil] at hlast
      rwa [List.intercalate_singleton]
    | cons v ws =>
      rw [List.intercalate_cons_cons, List.append_assoc]
      refine .word hne hw ?_ (.blank (by decide) hrest)
      rintro _ ⟨⟩
      decide

theorem mem_intercalate {c : Char} {ws : List (List Char)} (h : c ∈ [' '].intercalate ws) :
    c = ' ' ∨ ∃ w ∈ ws, c ∈ w := by
  induction ws with
  | nil => cases h
  | cons w ws ih =>
    cases ws with
    | nil => exact .inr ⟨w, List.mem_cons_self, by simpa using h⟩
    | cons v ws =>
      rw [List.intercalate_cons_cons, List.mem_append, List.mem_append] at h
      rcases h with (hw | hspace) | hrest
      · exact .inr ⟨w, List.mem_cons_self, hw⟩
      · exact .inl (List.mem_singleton.mp hspace)
      · rcases ih hrest with hspace | ⟨u, hu, hc⟩
        · exact .inl hspace
        · exact .inr ⟨u, List.mem_cons_of_mem w hu, hc⟩

inductive Break : List Char → Prop where
  | single {c : Char} (hc : isLineBreak c = true) : Break [c]
  | pair : Break ['\r', '\n']

/-- The lines of a text from top to bottom, without what stands between them. A carriage return
before a line feed is no break of its own, and nothing behind the last break is no line. -/
inductive Ruled : List (List Char) → List Char → Prop where
  | nil : Ruled [] []
  | last {line : List Char} (hne : line ≠ []) (hline : ∀ c ∈ line, isLineBreak c = false) :
      Ruled [line] line
  | line {line between : List Char} {ls : List (List Char)} {cs : List Char}
      (hline : ∀ c ∈ line, isLineBreak c = false) (hbetween : Break between)
      (halone : between = ['\r'] → cs.head? ≠ some '\n') (rest : Ruled ls cs) :
      Ruled (line :: ls) (line ++ (between ++ cs))

theorem lines_letter {c : Char} (hc : isLineBreak c = false) {cs line : List Char}
    {more : List (List Char)} (h : lines cs = line :: more) :
    lines (c :: cs) = (c :: line) :: more := by
  rw [lines.eq_3]
  · rw [if_neg (Bool.eq_false_iff.mp hc), h]
  · rintro rest rfl
    exact absurd hc (by decide)

theorem lines_letter_last {c : Char} (hc : isLineBreak c = false) : lines [c] = [[c]] := by
  rw [lines.eq_3]
  · exact if_neg (Bool.eq_false_iff.mp hc)
  · rintro rest rfl
    exact absurd hc (by decide)

theorem lines_break {c : Char} (hc : isLineBreak c = true) {cs : List Char}
    (halone : [c] = ['\r'] → cs.head? ≠ some '\n') : lines (c :: cs) = [] :: lines cs := by
  rw [lines.eq_3]
  · simp [hc]
  · rintro rest rfl rfl
    exact halone rfl rfl

theorem lines_between {between cs : List Char} (h : Break between)
    (halone : between = ['\r'] → cs.head? ≠ some '\n') :
    lines (between ++ cs) = [] :: lines cs := by
  cases h with
  | single hc => exact lines_break hc halone
  | pair => rfl

theorem lines_line {line cs rest : List Char} {ls : List (List Char)}
    (hline : ∀ c ∈ line, isLineBreak c = false) (hrest : lines cs = rest :: ls) :
    lines (line ++ cs) = (line ++ rest) :: ls := by
  induction line with
  | nil => exact hrest
  | cons c line ih =>
    have htail := ih fun d hd => hline d (List.mem_cons_of_mem c hd)
    exact lines_letter (hline c List.mem_cons_self) htail

theorem lines_last {line : List Char} (hne : line ≠ [])
    (hline : ∀ c ∈ line, isLineBreak c = false) : lines line = [line] := by
  obtain ⟨front, c, rfl⟩ := (List.eq_nil_or_concat line).resolve_left hne
  rw [List.concat_eq_append] at hline ⊢
  have hc : isLineBreak c = false := hline c (by simp)
  have hfront : ∀ d ∈ front, isLineBreak d = false := fun d hd => hline d (by simp [hd])
  exact lines_line hfront (lines_letter_last hc)

theorem Ruled.lines_eq {ls : List (List Char)} {cs : List Char} (h : Ruled ls cs) :
    lines cs = ls := by
  induction h with
  | nil => rfl
  | last hne hline => exact lines_last hne hline
  | @line line between ls cs hline hbetween halone rest ih =>
    have hcut := lines_line hline (lines_between hbetween halone)
    rwa [List.append_nil, ih] at hcut

/-- A letter in front belongs to the first line. -/
theorem Ruled.letter {line cs : List Char} {ls : List (List Char)} (h : Ruled (line :: ls) cs)
    {c : Char} (hc : isLineBreak c = false) : Ruled ((c :: line) :: ls) (c :: cs) := by
  have hgrown (hline : ∀ d ∈ line, isLineBreak d = false) :
      ∀ d ∈ c :: line, isLineBreak d = false := by
    intro d hd
    rcases List.mem_cons.mp hd with rfl | hd
    · exact hc
    · exact hline d hd
  cases h with
  | last hne hline => exact .last (List.cons_ne_nil c _) (hgrown hline)
  | line hline hbetween halone rest => exact .line (hgrown hline) hbetween halone rest

theorem ruled_lines (cs : List Char) : Ruled (lines cs) cs := by
  have hempty : ∀ c ∈ ([] : List Char), isLineBreak c = false := by simp
  fun_induction lines cs with
  | case1 => exact .nil
  | case2 rest ih => exact .line hempty .pair (by simp) ih
  | case3 c rest halone hc ih =>
    have hsingle : Break [c] := .single hc
    refine .line hempty hsingle ?_ ih
    intro hreturn hfeed
    obtain ⟨tail, rfl⟩ := List.head?_eq_some_iff.mp hfeed
    exact halone tail (List.cons.inj hreturn).1 rfl
  | case4 c rest halone hc hnone ih =>
    rw [hnone] at ih
    cases ih
    refine .last (List.cons_ne_nil c []) ?_
    intro d hd
    rw [List.mem_singleton.mp hd]
    exact Bool.eq_false_iff.mpr hc
  | case5 c rest halone hc line more hmore ih =>
    rw [hmore] at ih
    exact ih.letter (Bool.eq_false_iff.mpr hc)

theorem ruled_iff {ls : List (List Char)} {cs : List Char} : Ruled ls cs ↔ lines cs = ls := by
  constructor
  · exact Ruled.lines_eq
  · rintro rfl
    exact ruled_lines cs

end Micro6502.Text
