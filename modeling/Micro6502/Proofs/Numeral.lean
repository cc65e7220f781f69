import Mathlib
import Micro6502.Config.Field
import Micro6502.Proofs.Hexadecimal

namespace Micro6502.Text

/-- What satisfies `p` is taken off both ends, and what does not stays. -/
theorem stripBy_framed {p : Char → Bool} {left core right : List Char}
    (hleft : ∀ c ∈ left, p c = true) (hcore : ∀ c ∈ core, p c = false)
    (hright : ∀ c ∈ right, p c = true) : stripBy p (left ++ core ++ right) = core := by
  have hstop : ∀ cs rest : List Char, cs ≠ [] → (∀ c ∈ cs, p c = false) →
      (cs ++ rest).dropWhile p = cs ++ rest := by
    intro cs rest hne hcs
    obtain ⟨c, cs, rfl⟩ := List.exists_cons_of_ne_nil hne
    simp [hcs c (by simp)]
  rw [stripBy, List.append_assoc, List.dropWhile_append_of_pos hleft]
  by_cases hempty : core = []
  · subst hempty
    rw [List.nil_append, List.dropWhile_eq_nil_iff.mpr hright]
    rfl
  · rw [hstop core right hempty hcore, List.reverse_append,
      List.dropWhile_append_of_pos (fun c hc => hright c (List.mem_reverse.mp hc))]
    have hreverse := hstop core.reverse [] (List.reverse_ne_nil_iff.mpr hempty)
      fun c hc => hcore c (List.mem_reverse.mp hc)
    rw [List.append_nil] at hreverse
    rw [hreverse, List.reverse_reverse]

namespace Hex

theorem toUpper_toUpper (c : Char) : c.toUpper.toUpper = c.toUpper := by
  have hcode := toNat_toUpper c
  rw [← Char.toNat_inj, toNat_toUpper c.toUpper, if_neg]
  split at hcode <;> omega

/-- Digits may be in either case. -/
theorem number?_toUpper (cs : List Char) : number? (cs.map Char.toUpper) = number? cs := by
  have hdigit : ∀ c : Char, digit? c.toUpper = digit? c := by
    intro c
    apply Option.ext
    intro n
    rw [digit?_iff, digit?_iff, toUpper_toUpper]
  simp only [number?, List.foldlM_map, hdigit]

theorem upper_ne_nil (width n : Nat) : (upper width n).toList ≠ [] := by
  have hsign : ¬ ((n : Int) < 0) := by omega
  simp [upper, hsign, padded]

end Hex

def IsPlain (c : Char) : Prop := c.isAlphanum = true ∨ c = '$'

variable {c : Char} {cs digits : List Char} {n : Nat}

theorem IsPlain.code (h : IsPlain c) :
    c.toNat = 0x24 ∨ (0x30 ≤ c.toNat ∧ c.toNat ≤ 0x39) ∨ (0x41 ≤ c.toNat ∧ c.toNat ≤ 0x5A) ∨
      (0x61 ≤ c.toNat ∧ c.toNat ≤ 0x7A) := by
  rcases h with h | rfl
  · simp only [Char.isAlphanum, Char.isAlpha, Char.isUpper, Char.isLower, Char.isDigit,
      Bool.or_eq_true, Bool.and_eq_true, decide_eq_true_eq, ge_iff_le,
      UInt32.le_iff_toNat_le] at h
    change _ ∨ (0x30 ≤ c.val.toNat ∧ c.val.toNat ≤ 0x39) ∨
      (0x41 ≤ c.val.toNat ∧ c.val.toNat ≤ 0x5A) ∨ (0x61 ≤ c.val.toNat ∧ c.val.toNat ≤ 0x7A)
    tauto
  · exact .inl rfl

theorem IsPlain.not_blank (h : IsPlain c) : isBlank c = false := by
  have := h.code
  simp only [isBlank, Bool.or_eq_false_iff, Bool.and_eq_false_iff, decide_eq_false_iff_not,
    beq_eq_false_iff_ne, ne_eq]
  omega

theorem IsPlain.ne (h : IsPlain c) : c ≠ '-' ∧ c ≠ '+' ∧ c ≠ '_' := by
  have hcode := h.code
  refine ⟨?_, ?_, ?_⟩ <;> rintro rfl <;> revert hcode <;> decide

theorem isPlain_digit (h : c ∈ Hex.digits) : IsPlain c := by
  have hall : Hex.digits.all Char.isAlphanum = true := by decide
  exact .inl (List.all_eq_true.mp hall c h)

theorem isPlain_decimal (h : c.isDigit = true) : IsPlain c :=
  .inl (by simp [Char.isAlphanum, h])

namespace Integer

variable {base : Nat}

def numeral? (base : Nat) (cs : List Char) : Option Nat :=
  cs.foldlM (fun n c => (digit? base c).map (n * base + ·)) 0

/-- Without underscores a literal is one digit after the other. -/
theorem digits?_eq (hne : cs ≠ []) (h : '_' ∉ cs) : digits? base cs = cs.mapM (digit? base) := by
  fun_induction digits? base cs with
  | case1 => exact absurd rfl hne
  | case2 c => simp [Option.map_eq_bind]
  | case3 c rest ih => simp at h
  | case4 c d rest hd ih =>
    rw [ih (by simp) (fun hmem => h (.tail _ hmem)), List.mapM_cons (l := d :: rest)]
    rfl

theorem length_digits {f : Char → Option Nat} {ds : List Nat} (h : cs.mapM f = some ds) :
    ds.length = cs.length := by
  induction cs generalizing ds with
  | nil =>
    cases h
    rfl
  | cons c rest ih =>
    simp only [List.mapM_cons, Option.bind_eq_bind, Option.bind_eq_some_iff, Option.pure_def,
      Option.some.injEq] at h
    obtain ⟨d, -, ds, hds, rfl⟩ := h
    simp [ih hds]

/-- Digits can be put together while they are read. -/
theorem foldl_digits {f : Char → Option Nat} {g : Nat → Nat → Nat} (cs : List Char) (n : Nat) :
    (cs.mapM f).map (List.foldl g n) = cs.foldlM (fun n c => (f c).map (g n)) n := by
  induction cs generalizing n with
  | nil => rfl
  | cons c rest ih =>
    rw [List.foldlM_cons, List.mapM_cons]
    cases f c with
    | none => rfl
    | some d =>
      change _ = rest.foldlM (fun n c => (f c).map (g n)) (g n d)
      rw [← ih (g n d)]
      cases rest.mapM f <;> rfl

theorem magnitude?_eq (hne : cs ≠ []) (h : '_' ∉ cs) : magnitude? base cs =
    if base = 10 ∧ decimalLimit < cs.length then none else numeral? base cs := by
  rw [magnitude?, digits?_eq hne h, numeral?, ← foldl_digits]
  cases hds : cs.mapM (digit? base) with
  | none => simp
  | some ds =>
    change (if base = 10 ∧ decimalLimit < ds.length then none else some (ofDigits base ds)) = _
    rw [length_digits hds]
    rfl

/-- In ASCII the digits are those of hexadecimal numbers, up to the base. -/
theorem digit?_plain (h : IsPlain c) : digit? base c = (Hex.digit? c).filter (· < base) := by
  have hforeign : foreignDigit? c = none := by
    have hzeros : ∀ z ∈ zeros, 0x660 ≤ z := by decide
    have hnone : zeros.find? (fun z => z ≤ c.toNat && c.toNat < z + 10) = none := by
      refine List.find?_eq_none.mpr fun z hz hcovers => ?_
      have := hzeros z hz
      have := h.code
      simp only [Bool.and_eq_true, decide_eq_true_eq] at hcovers
      omega
    rw [foreignDigit?, hnone]
    rfl
  rw [digit?, hforeign, Option.or_none]

theorem digit?_sixteen (h : IsPlain c) : digit? 16 c = Hex.digit? c := by
  rw [digit?_plain h]
  cases hd : Hex.digit? c with
  | none => rfl
  | some d => simp [(Hex.digit?_iff.mp hd).1]

theorem digit?_ten (h : IsPlain c) :
    digit? 10 c = if c.isDigit = true then some (c.toNat - 0x30) else none := by
  have hcode := h.code
  have hdigit : c.isDigit = true ↔ 0x30 ≤ c.toNat ∧ c.toNat ≤ 0x39 := Char.isDigit_iff_toNat
  rw [digit?_plain h]
  split
  · rename_i hc
    have hrange := hdigit.mp hc
    have hd : Hex.digit? c = some (c.toNat - 0x30) := Hex.digit?_eq_some.mpr (by omega)
    rw [hd, Option.filter_some, if_pos (by simpa using (by omega : c.toNat - 0x30 < 10))]
  · rename_i hc
    cases hd : Hex.digit? c with
    | none => rfl
    | some d =>
      rw [hdigit] at hc
      rw [Hex.digit?_eq_some] at hd
      rw [Option.filter_some, if_neg (by simpa using (by omega : 10 ≤ d))]

theorem numeral?_sixteen (h : ∀ c ∈ cs, IsPlain c) : numeral? 16 cs = Hex.number? cs := by
  rw [numeral?, Hex.number?]
  -- from any number that is read already
  generalize 0 = start
  induction cs generalizing start with
  | nil => rfl
  | cons c rest ih =>
    have hrest := ih fun d hd => h d (.tail _ hd)
    simp only [List.foldlM_cons, digit?_sixteen (h c (by simp)), hrest, Nat.mul_comm]

theorem numeral?_ten (h : ∀ c ∈ cs, IsPlain c) : numeral? 10 cs =
    if cs.all Char.isDigit = true then some (Nat.ofDigitChars 10 cs 0) else none := by
  rw [numeral?, Nat.ofDigitChars]
  generalize 0 = start
  induction cs generalizing start with
  | nil => rfl
  | cons c rest ih =>
    rw [List.foldlM_cons, digit?_ten (h c (by simp)), List.foldl_cons]
    by_cases hc : c.isDigit = true
    · have hstep : start * 10 + (c.toNat - 0x30) = 10 * start + (c.toNat - '0'.toNat) := by
        rw [Nat.mul_comm]
        rfl
      simp only [hc, if_true, Option.map_some, Option.bind_eq_bind, Option.bind_some,
        List.all_cons, Bool.true_and, hstep]
      exact ih (fun d hd => h d (.tail _ hd)) _
    · simp [hc]

theorem magnitude?_nil : magnitude? base [] = none := rfl

theorem not_underscore (h : ∀ c ∈ cs, IsPlain c) : '_' ∉ cs :=
  fun hmem => (h _ hmem).ne.2.2 rfl

theorem magnitude?_sixteen (h : ∀ c ∈ cs, IsPlain c) :
    magnitude? 16 cs = some n ↔ cs ≠ [] ∧ Hex.number? cs = some n := by
  by_cases hne : cs = []
  · simp [hne, magnitude?_nil]
  · rw [magnitude?_eq hne (not_underscore h), numeral?_sixteen h]
    simp [hne]

theorem magnitude?_ten (h : ∀ c ∈ cs, IsPlain c) :
    magnitude? 10 cs = some n ↔ cs ≠ [] ∧ (∀ c ∈ cs, c.isDigit = true) ∧
      cs.length ≤ decimalLimit ∧ Nat.ofDigitChars 10 cs 0 = n := by
  by_cases hne : cs = []
  · simp [hne, magnitude?_nil]
  · rw [magnitude?_eq hne (not_underscore h), numeral?_ten h]
    simp only [true_and, Option.ite_none_left_eq_some, Option.ite_none_right_eq_some,
      Option.some.injEq, Nat.not_lt, hne, ne_eq, not_false_eq_true, List.all_eq_true]
    tauto

theorem unsigned?_ten (cs : List Char) : unsigned? 10 cs = magnitude? 10 cs := by
  have hmark : withoutMark 10 cs = cs := by
    unfold withoutMark
    split
    · rw [if_neg (fun h => nomatch h.2)]
    · rfl
  rw [unsigned?, hmark]

theorem toLower_eq_x : c.toLower = 'x' ↔ c = 'x' ∨ c = 'X' := by
  constructor
  · intro h
    unfold Char.toLower at h
    split at h
    · rename_i hupper
      have hcode : (c.val + ('a'.val - 'A'.val)).toNat = 0x78 := congrArg Char.toNat h
      have hstep : ('a'.val - 'A'.val).toNat = 0x20 := rfl
      have hrange : c.val.toNat ≤ 0x5A := hupper.2
      rw [UInt32.toNat_add, hstep] at hcode
      refine .inr (Char.toNat_inj.mp ?_)
      change c.val.toNat = 0x58
      omega
    · exact .inl h
  · rintro (rfl | rfl) <;> rfl

/-- The marks that hexadecimal digits may have, or not, behind a dollar sign. -/
def innerMarks : List (List Char) := [[], ['0', 'x'], ['0', 'X']]

theorem withoutMark_marked (hmark : c = 'x' ∨ c = 'X') (h : ∀ c ∈ digits, IsPlain c) :
    withoutMark 16 ('0' :: c :: digits) = digits := by
  have hzero : digit? 10 '0' = some 0 := by decide
  rw [withoutMark, if_pos ⟨hzero, congrArg some (toLower_eq_x.mpr hmark).symm⟩]
  rintro _ rfl
  exact not_underscore h (by simp)

theorem withoutMark_plain (h : ∀ c ∈ cs, IsPlain c)
    (hmark : ∀ c rest, cs = '0' :: c :: rest → ¬ (c = 'x' ∨ c = 'X')) : withoutMark 16 cs = cs := by
  unfold withoutMark
  split
  · rename_i zero letter rest
    refine if_neg fun hmarked => ?_
    obtain ⟨hzero, hletter⟩ := hmarked
    rw [digit?_ten (h zero (by simp)), Option.ite_none_right_eq_some, Option.some.injEq] at hzero
    have hlower := (Char.isDigit_iff_toNat.mp hzero.1).1
    have hupper := Nat.sub_eq_zero_iff_le.mp hzero.2
    have hzero : zero = '0' := Char.toNat_inj.mp (Nat.le_antisymm hupper hlower)
    rw [hzero] at hmark
    exact hmark letter rest rfl (toLower_eq_x.mp (Option.some.inj hletter).symm)
  · rfl

theorem mem_innerMarks {mark : List Char} :
    mark ∈ innerMarks ↔ mark = [] ∨ ∃ c, (c = 'x' ∨ c = 'X') ∧ mark = ['0', c] := by
  simp [innerMarks, or_and_right, exists_or]

/-- No hexadecimal digit is a mark. -/
theorem not_marked (h : Hex.number? cs = some n) (c : Char) (rest : List Char)
    (hcs : cs = '0' :: c :: rest) : ¬ (c = 'x' ∨ c = 'X') := by
  have hdigit := Hex.isSome_digit? h (c := c) (by simp [hcs])
  rintro (rfl | rfl) <;> cases hdigit

/-- Hexadecimal digits may have a mark of their own. -/
theorem unsigned?_sixteen (h : ∀ c ∈ cs, IsPlain c) :
    unsigned? 16 cs = some n ↔ ∃ mark ∈ innerMarks, ∃ digits, cs = mark ++ digits ∧ digits ≠ [] ∧
      Hex.number? digits = some n := by
  rw [unsigned?]
  constructor
  · intro hn
    by_cases hmark : ∃ c rest, cs = '0' :: c :: rest ∧ (c = 'x' ∨ c = 'X')
    · obtain ⟨c, rest, rfl, hc⟩ := hmark
      have hrest : ∀ d ∈ rest, IsPlain d := fun d hd => h d (.tail _ (.tail _ hd))
      rw [withoutMark_marked hc hrest, magnitude?_sixteen hrest] at hn
      exact ⟨['0', c], mem_innerMarks.mpr (.inr ⟨c, hc, rfl⟩), rest, rfl, hn⟩
    · rw [withoutMark_plain h fun c rest hcs hc => hmark ⟨c, rest, hcs, hc⟩,
        magnitude?_sixteen h] at hn
      exact ⟨[], mem_innerMarks.mpr (.inl rfl), cs, rfl, hn⟩
  · rintro ⟨mark, hmark, digits, rfl, hdigits⟩
    rcases mem_innerMarks.mp hmark with rfl | ⟨c, hc, rfl⟩
    · rw [List.nil_append] at h ⊢
      rw [withoutMark_plain h (not_marked hdigits.2), magnitude?_sixteen h]
      exact hdigits
    · have hplain : ∀ d ∈ digits, IsPlain d := fun d hd => h d (List.mem_append_right _ hd)
      rw [List.cons_append, List.singleton_append, withoutMark_marked hc hplain,
        magnitude?_sixteen hplain]
      exact hdigits

/-- Without blanks and signs an integer is what its digits say. -/
theorem parse?_plain (h : ∀ c ∈ cs, IsPlain c) :
    parse? base cs = (unsigned? base cs).map fun n : Nat => (n : Int) := by
  have hstrip : stripBy isMargin cs = cs := by
    have hcore : ∀ c ∈ cs, isMargin c = false := fun c hc => by simp [isMargin, (h c hc).not_blank]
    simpa using stripBy_framed (List.forall_mem_nil _) hcore (List.forall_mem_nil _)
  rw [parse?, hstrip]
  split
  · exact absurd rfl (h '-' (by simp)).ne.1
  · exact absurd rfl (h '+' (by simp)).ne.2.1
  · cases unsigned? base cs <;> rfl

theorem stripBy_signed {sign : Char} (hsign : isBlank sign = false) (h : ∀ c ∈ cs, IsPlain c) :
    stripBy isMargin (sign :: cs) = sign :: cs := by
  have hcore : ∀ c ∈ sign :: cs, isMargin c = false := by
    intro c hc
    rcases List.mem_cons.mp hc with rfl | hc
    · simp [isMargin, hsign]
    · simp [isMargin, (h c hc).not_blank]
  simpa using stripBy_framed (List.forall_mem_nil _) hcore (List.forall_mem_nil _)

theorem parse?_plus (h : ∀ c ∈ cs, IsPlain c) :
    parse? base ('+' :: cs) = (unsigned? base cs).map fun n : Nat => (n : Int) := by
  rw [parse?, stripBy_signed rfl h]
  change (do return ((← unsigned? base cs : Nat) : Int) : Option Int).map (fun n => n) = _
  cases unsigned? base cs <;> rfl

theorem parse?_minus (h : ∀ c ∈ cs, IsPlain c) :
    parse? base ('-' :: cs) = (unsigned? base cs).map fun n : Nat => -(n : Int) := by
  rw [parse?, stripBy_signed rfl h]
  change (do return ((← unsigned? base cs : Nat) : Int) : Option Int).map (fun n => -n) = _
  cases unsigned? base cs <;> rfl

theorem isPlain_toString : ∀ c ∈ (toString n).toList, IsPlain c := by
  rw [Nat.toString_eq_repr, Nat.toList_repr]
  exact fun c hc => isPlain_decimal (Nat.isDigit_of_mem_toDigits (by decide) (by decide) hc)

/-- What a number is written as is read as this number, unless it has too many digits. -/
theorem unsigned?_decimal (h : n < 10 ^ decimalLimit) :
    unsigned? 10 (toString n).toList = some n := by
  rw [unsigned?_ten, magnitude?_ten isPlain_toString, Nat.toString_eq_repr, Nat.toList_repr]
  exact ⟨Nat.toDigits_ne_nil, fun c hc => Nat.isDigit_of_mem_toDigits (by decide) (by decide) hc,
    (Nat.length_toDigits_le_iff (by decide) (by decide)).mpr h, Nat.ofDigitChars_ten_toDigits⟩

end Integer

end Micro6502.Text

namespace Micro6502.Config

open Text Text.Integer

def marks : List (List Char) := [['0', 'x'], ['0', 'X'], ['$'], ['$', '0', 'x'], ['$', '0', 'X']]

/-- The ways to write a number without a sign. -/
inductive Numeral : List Char → Nat → Prop
  | decimal {digits : List Char} (hne : digits ≠ []) (hdigits : ∀ c ∈ digits, c.isDigit = true)
      (hlimit : digits.length ≤ decimalLimit) : Numeral digits (Nat.ofDigitChars 10 digits 0)
  | hexadecimal {mark digits : List Char} {n : Nat} (hmark : mark ∈ marks) (hne : digits ≠ [])
      (hn : Hex.number? digits = some n) : Numeral (mark ++ digits) n

variable {s : String} {cs digits mark left right rest : List Char} {c : Char} {n : Nat} {z : Int}

theorem mem_marks : mark ∈ marks ↔
    (∃ c, (c = 'x' ∨ c = 'X') ∧ mark = ['0', c]) ∨ ∃ inner ∈ innerMarks, mark = '$' :: inner := by
  simp [marks, innerMarks, or_and_right, exists_or, or_assoc]

theorem isPlain_number (h : Hex.number? digits = some n) (hc : c ∈ digits) : IsPlain c :=
  isPlain_digit (Hex.mem_digits.mpr (Option.isSome_iff_exists.mp (Hex.isSome_digit? h hc)))

theorem Numeral.plain (h : Numeral cs n) : ∀ c ∈ cs, IsPlain c := by
  cases h with
  | decimal hne hdigits hlimit => exact fun c hc => isPlain_decimal (hdigits c hc)
  | @hexadecimal mark digits n hmark hne hn =>
    have hmarks : (marks.all fun mark => mark.all fun c => c.isAlphanum || c == '$') = true := by
      decide
    intro c hc
    rcases List.mem_append.mp hc with hc | hc
    · have hplain := List.all_eq_true.mp (List.all_eq_true.mp hmarks mark hmark) c hc
      simpa [IsPlain] using hplain
    · exact isPlain_number hn hc

theorem literal?_dollar (hs : strip s.toList = '$' :: rest) : literal? s = parse? 16 rest := by
  rw [literal?, hs]
  rfl

theorem literal?_marked (hs : strip s.toList = '0' :: c :: rest) (hc : c = 'x' ∨ c = 'X') :
    literal? s = parse? 16 ('0' :: c :: rest) := by
  rw [literal?, hs]
  simp only [hc, if_true]

theorem literal?_unmarked (hs : strip s.toList = cs) (hdollar : ∀ rest, cs ≠ '$' :: rest)
    (hmark : ∀ c rest, cs = '0' :: c :: rest → ¬ (c = 'x' ∨ c = 'X')) :
    literal? s = parse? 10 cs := by
  rw [literal?, hs]
  split
  · rename_i rest
    exact absurd rfl (hdollar rest)
  · rename_i c rest
    rw [if_neg (hmark c rest rfl)]
  · rfl

theorem literal?_numeral (hs : strip s.toList = cs) (h : Numeral cs n) :
    literal? s = some (n : Int) := by
  have hplain := h.plain
  cases h with
  | decimal hne hdigits hlimit =>
    rw [literal?_unmarked hs, parse?_plain hplain, unsigned?_ten,
      (magnitude?_ten hplain).mpr ⟨hne, hdigits, hlimit, rfl⟩]
    · rfl
    · rintro rest rfl
      exact absurd (hdigits '$' (by simp)) (by decide)
    · rintro c rest rfl (rfl | rfl)
      · exact absurd (hdigits 'x' (by simp)) (by decide)
      · exact absurd (hdigits 'X' (by simp)) (by decide)
  | @hexadecimal mark digits n hmark hne hn =>
    rcases mem_marks.mp hmark with ⟨c, hc, rfl⟩ | ⟨inner, hinner, rfl⟩
    · have hvalue : unsigned? 16 ('0' :: c :: digits) = some n := (unsigned?_sixteen hplain).mpr
        ⟨['0', c], mem_innerMarks.mpr (.inr ⟨c, hc, rfl⟩), digits, rfl, hne, hn⟩
      rw [literal?_marked hs hc]
      refine (parse?_plain hplain).trans ?_
      rw [List.cons_append, List.singleton_append, hvalue]
      rfl
    · have hrest : ∀ c ∈ inner ++ digits, IsPlain c := fun c hc => hplain c (.tail _ hc)
      have hvalue := (unsigned?_sixteen hrest).mpr ⟨inner, hinner, digits, rfl, hne, hn⟩
      rw [literal?_dollar hs]
      refine (parse?_plain hrest).trans ?_
      rw [hvalue]
      rfl

/-- Among plain texts only those are read that write a number. -/
theorem numeral_of_literal? (hs : strip s.toList = cs) (hplain : ∀ c ∈ cs, IsPlain c)
    (h : literal? s = some z) : ∃ n : Nat, z = n ∧ Numeral cs n := by
  by_cases hdollar : ∃ rest, cs = '$' :: rest
  · obtain ⟨rest, rfl⟩ := hdollar
    have hrest : ∀ c ∈ rest, IsPlain c := fun c hc => hplain c (.tail _ hc)
    rw [literal?_dollar hs, parse?_plain hrest, Option.map_eq_some_iff] at h
    obtain ⟨n, hn, rfl⟩ := h
    obtain ⟨inner, hinner, digits, rfl, hne, hn⟩ := (unsigned?_sixteen hrest).mp hn
    exact ⟨n, rfl, .hexadecimal (mem_marks.mpr (.inr ⟨inner, hinner, rfl⟩)) hne hn⟩
  by_cases hmark : ∃ c rest, cs = '0' :: c :: rest ∧ (c = 'x' ∨ c = 'X')
  · obtain ⟨c, rest, rfl, hc⟩ := hmark
    rw [literal?_marked hs hc, parse?_plain hplain, Option.map_eq_some_iff] at h
    obtain ⟨n, hn, rfl⟩ := h
    obtain ⟨inner, hinner, digits, hcs, hne, hn⟩ := (unsigned?_sixteen hplain).mp hn
    rw [hcs]
    rcases mem_innerMarks.mp hinner with rfl | hinner
    · exact absurd hc (not_marked hn c rest hcs.symm)
    · exact ⟨n, rfl, .hexadecimal (mem_marks.mpr (.inl hinner)) hne hn⟩
  · rw [literal?_unmarked hs (fun rest hcs => hdollar ⟨rest, hcs⟩)
      (fun c rest hcs hc => hmark ⟨c, rest, hcs, hc⟩), parse?_plain hplain, unsigned?_ten,
      Option.map_eq_some_iff] at h
    obtain ⟨n, hn, rfl⟩ := h
    obtain ⟨hne, hdigits, hlimit, rfl⟩ := (magnitude?_ten hplain).mp hn
    exact ⟨_, rfl, .decimal hne hdigits hlimit⟩

def framed (left core right : List Char) : Data := .text (String.ofList (left ++ core ++ right))

theorem strip_framed (hleft : ∀ c ∈ left, isBlank c = true) (hcs : ∀ c ∈ cs, isBlank c = false)
    (hright : ∀ c ∈ right, isBlank c = true) :
    strip (String.ofList (left ++ cs ++ right)).toList = cs := by
  rw [String.toList_ofList]
  exact stripBy_framed hleft hcs hright

theorem integer_literal (h : literal? s = some z) : integer (.text s) = .ok z := by
  rw [integer, h]

theorem integer_numeral (h : Numeral cs n) (hleft : ∀ c ∈ left, isBlank c = true)
    (hright : ∀ c ∈ right, isBlank c = true) :
    integer (framed left cs right) = .ok (n : Int) := by
  have hs := strip_framed hleft (fun c hc => (h.plain c hc).not_blank) hright
  exact integer_literal (literal?_numeral hs h)

theorem numeral_hexadecimal {width : Nat} (hmark : mark ∈ marks)
    (h : digits.map Char.toUpper = (Hex.upper width n).toList) : Numeral (mark ++ digits) n := by
  refine .hexadecimal hmark ?_ ?_
  · rintro rfl
    exact Hex.upper_ne_nil width n h.symm
  · rw [← Hex.number?_toUpper, h, Hex.number?_upper]

theorem numeral_decimal (h : n < 10 ^ decimalLimit) : Numeral (toString n).toList n := by
  have hvalue := unsigned?_decimal h
  rw [unsigned?_ten, magnitude?_ten isPlain_toString] at hvalue
  obtain ⟨hne, hdigits, hlimit, hn⟩ := hvalue
  have hnumeral := Numeral.decimal hne hdigits hlimit
  rwa [hn] at hnumeral

/-- A sign in front makes the text a decimal one. -/
theorem literal?_signed {sign : Char} (hs : strip s.toList = sign :: cs)
    (hsign : sign = '+' ∨ sign = '-') : literal? s = parse? 10 (sign :: cs) := by
  refine literal?_unmarked hs ?_ ?_
  · rintro rest ⟨⟩
    rcases hsign with h | h <;> cases h
  · rintro c rest ⟨⟩
    rcases hsign with h | h <;> cases h

/-- A decimal number may have a sign. -/
theorem integer_signed (hn : n < 10 ^ decimalLimit) (hleft : ∀ c ∈ left, isBlank c = true)
    (hright : ∀ c ∈ right, isBlank c = true) :
    integer (framed left (toString n).toList right) = .ok (n : Int) ∧
    integer (framed left ('+' :: (toString n).toList) right) = .ok (n : Int) ∧
    integer (framed left ('-' :: (toString n).toList) right) = .ok (-n : Int) := by
  have hsigned : ∀ sign : Char, isBlank sign = false →
      ∀ c ∈ sign :: (toString n).toList, isBlank c = false := by
    intro sign hsign c hc
    rcases List.mem_cons.mp hc with rfl | hc
    · exact hsign
    · exact (isPlain_toString c hc).not_blank
  refine ⟨integer_numeral (numeral_decimal hn) hleft hright, integer_literal ?_, integer_literal ?_⟩
  · rw [literal?_signed (strip_framed hleft (hsigned '+' rfl) hright) (.inl rfl),
      parse?_plus isPlain_toString, unsigned?_decimal hn]
    rfl
  · rw [literal?_signed (strip_framed hleft (hsigned '-' rfl) hright) (.inr rfl),
      parse?_minus isPlain_toString, unsigned?_decimal hn]
    rfl

/-- What an integer is written as is read as this integer. Without a sign of its own it may have a
plus, and zero a minus. -/
theorem integer_toString (hz : z.natAbs < 10 ^ decimalLimit)
    (hleft : ∀ c ∈ left, isBlank c = true) (hright : ∀ c ∈ right, isBlank c = true) :
    integer (framed left (toString z).toList right) = .ok z ∧
    (0 ≤ z → integer (framed left ('+' :: (toString z).toList) right) = .ok z) ∧
    (z ≤ 0 → integer (framed left ('-' :: (toString (-z)).toList) right) = .ok z) := by
  obtain ⟨hplain, hplus, hminus⟩ := integer_signed hz hleft hright
  cases z with
  | ofNat n =>
    refine ⟨hplain, fun _ => hplus, fun hneg => ?_⟩
    obtain rfl : n = 0 := by
      change (n : Int) ≤ 0 at hneg
      omega
    exact hminus
  | negSucc n =>
    have htext : (toString (Int.negSucc n)).toList = '-' :: (toString (n + 1)).toList := by
      change ("-" ++ toString (n + 1)).toList = _
      rw [String.toList_append]
      rfl
    rw [htext]
    exact ⟨hminus, fun h => absurd h (by omega), fun _ => hminus⟩

/-- A text that writes no number is a fault of the configuration. -/
theorem integer_refused (h : literal? s = none) :
    ∃ e, integer (.text s) = .error e ∧ e.kind = .config :=
  ⟨.notInteger (.text s), by rw [integer, h], rfl⟩

/-- A number is read from its hexadecimal digits in either case, with any zeros in front, behind any
of the marks; an integer is read from its decimal text, with or without a sign, unless that is too
long. Blanks may stand around. Of the texts of letters, digits and dollar signs no others are
read. -/
theorem integer_notation :
    (∀ n : Nat, integer (.int n) = .ok (n : Int)) ∧
    (∀ (n width : Nat) (mark digits left right : List Char), mark ∈ marks →
      digits.map Char.toUpper = (Hex.upper width n).toList →
      (∀ c ∈ left ++ right, isBlank c = true) →
      integer (framed left (mark ++ digits) right) = .ok (n : Int)) ∧
    (∀ (z : Int) (left right : List Char), z.natAbs < 10 ^ decimalLimit →
      (∀ c ∈ left ++ right, isBlank c = true) →
      integer (framed left (toString z).toList right) = .ok z ∧
      (0 ≤ z → integer (framed left ('+' :: (toString z).toList) right) = .ok z) ∧
      (z ≤ 0 → integer (framed left ('-' :: (toString (-z)).toList) right) = .ok z)) ∧
    (∀ s : String, (∀ c ∈ strip s.toList, c.isAlphanum = true ∨ c = '$') →
      (∀ z, integer (.text s) = .ok z ↔ ∃ n : Nat, z = n ∧ Numeral (strip s.toList) n) ∧
      ((∀ n, ¬ Numeral (strip s.toList) n) →
        ∃ e, integer (.text s) = .error e ∧ e.kind = .config)) := by
  refine ⟨fun n => rfl, ?_, ?_, ?_⟩
  · intro n width mark digits left right hmark hdigits hblank
    rw [List.forall_mem_append] at hblank
    exact integer_numeral (numeral_hexadecimal hmark hdigits) hblank.1 hblank.2
  · intro z left right hz hblank
    rw [List.forall_mem_append] at hblank
    exact integer_toString hz hblank.1 hblank.2
  · intro s hplain
    cases hs : literal? s with
    | none =>
      have hnone : ∀ n, ¬ Numeral (strip s.toList) n := by
        intro n hn
        rw [literal?_numeral rfl hn] at hs
        cases hs
      obtain ⟨e, he, hkind⟩ := integer_refused hs
      refine ⟨fun z => ⟨fun h => ?_, ?_⟩, fun _ => ⟨e, he, hkind⟩⟩
      · cases he.symm.trans h
      · rintro ⟨n, -, hn⟩
        exact absurd hn (hnone n)
    | some value =>
      obtain ⟨n, rfl, hn⟩ := numeral_of_literal? rfl hplain hs
      have hvalue := integer_literal hs
      refine ⟨fun z => ⟨fun h => ?_, ?_⟩, fun hnone => absurd hn (hnone n)⟩
      · cases hvalue.symm.trans h
        exact ⟨n, rfl, hn⟩
      · rintro ⟨k, rfl, hk⟩
        rw [literal?_numeral rfl hk] at hs
        rw [hvalue, Option.some.inj hs]

/-- Zeros and blanks around a hexadecimal number of mixed case; a negative number; and digits
without their mark. -/
theorem integer_notation_forms :
    integer (.text "\t$00fF ") = .ok 255 ∧ integer (.text " -12") = .ok (-12) ∧
      integer (.text "+12\n") = .ok 12 ∧
      ∃ e, integer (.text "1F") = .error e ∧ e.kind = .config := by
  obtain ⟨-, hhexadecimal, hdecimal, hplain⟩ := integer_notation
  have hsmall : ∀ n < 10 ^ 2, n < 10 ^ decimalLimit := fun n hn =>
    lt_of_lt_of_le hn (Nat.pow_le_pow_right (by decide) (by decide))
  have hminus : (toString (-12 : Int)).toList = ['-', '1', '2'] := by decide
  have hplus : (toString (12 : Int)).toList = ['1', '2'] := by decide
  have hblank : ∀ cs : List Char, cs.all isBlank = true → ∀ c ∈ cs, isBlank c = true :=
    fun _ => List.all_eq_true.mp
  refine ⟨?_, ?_, ?_, ?_⟩
  · exact hhexadecimal 255 4 ['$'] ['0', '0', 'f', 'F'] ['\t'] [' '] (by decide) (by decide)
      (hblank _ rfl)
  · have hread := (hdecimal (-12) [' '] [] (hsmall _ (by decide)) (hblank _ rfl)).1
    rwa [hminus] at hread
  · have hread := (hdecimal 12 [] ['\n'] (hsmall _ (by decide)) (hblank _ rfl)).2.1 (by decide)
    rwa [hplus] at hread
  · have hdigits : (strip "1F".toList).all Char.isAlphanum = true := by decide
    have hread := hplain "1F" fun c hc => .inl (List.all_eq_true.mp hdigits c hc)
    refine hread.2 fun n hn => ?_
    have hvalue := (hread.1 n).mpr ⟨n, rfl, hn⟩
    cases hvalue

end Micro6502.Config
