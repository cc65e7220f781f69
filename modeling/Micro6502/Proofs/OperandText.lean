import Micro6502.Proofs.Hexadecimal
import Micro6502.Proofs.Operand

namespace Micro6502

structure Frame where
  front : List Char := []
  width : Nat
  back : List Char := []
  marks : '$' ∉ front ++ back := by decide
  places : 0 < width := by decide
  /-- What follows the digits is told from them. -/
  ends : (back.head?.any fun c => (Text.Hex.digit? c).isSome) = false := by rfl
  deriving DecidableEq

namespace Frame

def chars (f : Frame) (n : Nat) : List Char :=
  f.front ++ '$' :: ((Text.Hex.upper f.width n).toList ++ f.back)

def isDigit (c : Char) : Bool := (Text.Hex.digit? c).isSome

variable {f f' : Frame} {n n' : Nat}

theorem digits_upper (width n : Nat) : ∀ c ∈ (Text.Hex.upper width n).toList, isDigit c = true :=
  fun _ hc => Text.Hex.isSome_digit? (Text.Hex.number?_upper width n) hc

theorem takeWhile_digits (f : Frame) (n : Nat) :
    ((Text.Hex.upper f.width n).toList ++ f.back).takeWhile isDigit =
      (Text.Hex.upper f.width n).toList := by
  have hback : f.back.takeWhile isDigit = [] := by
    cases hf : f.back with
    | nil => rfl
    | cons c rest =>
      have hc := f.ends
      rw [hf] at hc
      exact List.takeWhile_cons_of_neg (by simpa [isDigit] using hc)
  rw [List.takeWhile_append_of_pos (digits_upper f.width n), hback, List.append_nil]

/-- The frame and the number can be told from what is written. -/
theorem chars_injective (hn : n < 16 ^ f.width) (hn' : n' < 16 ^ f'.width)
    (h : f.chars n = f'.chars n') : f = f' ∧ n = n' := by
  have hmarks : '$' ∉ f.front ∧ '$' ∉ f.back := by simpa using f.marks
  have hdigits : '$' ∉ (Text.Hex.upper f.width n).toList := fun hmem => by
    cases digits_upper f.width n _ hmem
  have hmark : '$' ∉ (Text.Hex.upper f.width n).toList ++ f.back := by
    simp [hdigits, hmarks.2]
  obtain ⟨hfront, -, hrest⟩ := (List.append_cons_inj_of_notMem hmarks.1 hmark).mp h
  have hupper : (Text.Hex.upper f.width n).toList = (Text.Hex.upper f'.width n').toList := by
    rw [← f.takeWhile_digits n, hrest, f'.takeWhile_digits n']
  have hback : f.back = f'.back := by
    rw [hupper] at hrest
    exact List.append_cancel_left hrest
  have hwidth : f.width = f'.width := by
    rw [← Text.Hex.length_upper f.places hn, hupper, Text.Hex.length_upper f'.places hn']
  have hnumber : n = n' := by
    have hread := congrArg Text.Hex.number? hupper
    rw [Text.Hex.number?_upper, Text.Hex.number?_upper] at hread
    exact Option.some.inj hread
  refine ⟨?_, hnumber⟩
  obtain ⟨front, width, back, _, _, _⟩ := f
  obtain ⟨front', width', back', _, _, _⟩ := f'
  simp only at hfront hwidth hback
  subst hfront hwidth hback
  rfl

end Frame

namespace Mode

def frame? : Mode → Option Frame
  | implicit => none
  | relative | absolute => some { width := 4 }
  | absoluteX => some { width := 4, back := [',', 'X'] }
  | absoluteY => some { width := 4, back := [',', 'Y'] }
  | indirect => some { front := ['('], width := 4, back := [')'] }
  | immediate => some { front := ['#'], width := 2 }
  | zeroPage => some { width := 2 }
  | zeroPageX => some { width := 2, back := [',', 'X'] }
  | zeroPageY => some { width := 2, back := [',', 'Y'] }
  | indexedIndirect => some { front := ['('], width := 2, back := [',', 'X', ')'] }
  | indirectIndexed => some { front := ['('], width := 2, back := [')', ',', 'Y'] }

def number (mode : Mode) (operand : List Byte) (next : Int) : Nat :=
  match mode, operand with
  | relative, [b] => (word (next + signedOffset b)).toNat
  | _, [b] => b.toNat
  | _, [lo, hi] => (wordOf lo hi).toNat
  | _, _ => 0

def written (mode : Mode) (operand : List Byte) (next : Int) : List Char :=
  match mode.frame? with
  | none => []
  | some f => f.chars (mode.number operand next)

variable {mode mode' : Mode} {operand operand' : List Byte} {next next' : Int}

theorem format_written (h : operand.length = mode.operandLength) (next : Int) :
    mode.format (byteValues operand) next = .ok (String.ofList (mode.written operand next)) := by
  have hword (a : Int) : ((word a).toNat : Int) = word a := Int.toNat_of_nonneg (word_nonneg a)
  have hpair (lo hi : Int) : ((wordOf lo hi).toNat : Int) = wordOf lo hi :=
    Int.toNat_of_nonneg (wordOf_range lo hi).1
  cases mode with
  | implicit => rfl
  | relative | immediate | zeroPage | zeroPageX | zeroPageY | indexedIndirect | indirectIndexed =>
    obtain ⟨b, rfl⟩ := List.length_eq_one_iff.mp h
    simp [format, byteValues, written, frame?, number, Frame.chars, hword, ← String.toList_inj,
      toString]
  | absolute | absoluteX | absoluteY | indirect =>
    obtain ⟨lo, hi, rfl⟩ := List.length_eq_two.mp h
    simp [format, byteValues, written, frame?, number, Frame.chars, hpair, ← String.toList_inj,
      toString]

/-- The number has no more digits than the frame has places. -/
theorem number_lt {f : Frame} (hf : mode.frame? = some f)
    (h : operand.length = mode.operandLength) (next : Int) :
    mode.number operand next < 16 ^ f.width := by
  cases mode with
  | implicit => cases hf
  | relative =>
    obtain ⟨b, rfl⟩ := List.length_eq_one_iff.mp h
    cases hf
    have := word_nonneg (next + signedOffset b)
    have := word_le (next + signedOffset b)
    simp only [number]
    omega
  | immediate | zeroPage | zeroPageX | zeroPageY | indexedIndirect | indirectIndexed =>
    obtain ⟨b, rfl⟩ := List.length_eq_one_iff.mp h
    cases hf
    exact b.toNat_lt
  | absolute | absoluteX | absoluteY | indirect =>
    obtain ⟨lo, hi, rfl⟩ := List.length_eq_two.mp h
    cases hf
    have := wordOf_range lo hi
    simp only [number]
    omega

theorem frame?_eq_none (h : mode.frame? = none) : mode = implicit := by
  cases mode <;> first | rfl | cases h

/-- The frame tells the mode, but for the two that write a plain address of four digits. -/
theorem frame?_injective (h : mode.frame? = mode'.frame?) :
    mode = mode' ∨ (mode = absolute ∧ mode' = relative) ∨ (mode = relative ∧ mode' = absolute) := by
  revert h
  cases mode <;> cases mode' <;> decide

/-- Two offsets that lead to one address are the same. -/
theorem signedOffset_injective {b b' : Byte}
    (h : word (next + signedOffset b) = word (next + signedOffset b')) : b = b' := by
  have := b.toNat_lt
  have := b'.toNat_lt
  apply UInt8.toNat_inj.mp
  unfold word signedOffset at h
  dsimp only at h
  split at h <;> split at h <;> omega

theorem wordOf_injective {lo hi lo' hi' : Byte} (h : wordOf lo hi = wordOf lo' hi') :
    lo = lo' ∧ hi = hi' := by
  have := lo.toNat_lt
  have := hi.toNat_lt
  have := lo'.toNat_lt
  have := hi'.toNat_lt
  unfold wordOf at h
  exact ⟨UInt8.toNat_inj.mp (by omega), UInt8.toNat_inj.mp (by omega)⟩

theorem number_injective (h : operand.length = mode.operandLength)
    (h' : operand'.length = mode.operandLength)
    (hnumber : mode.number operand next = mode.number operand' next) : operand = operand' := by
  cases mode with
  | implicit => rw [List.length_eq_zero_iff.mp h, List.length_eq_zero_iff.mp h']
  | relative =>
    obtain ⟨b, rfl⟩ := List.length_eq_one_iff.mp h
    obtain ⟨b', rfl⟩ := List.length_eq_one_iff.mp h'
    have := word_nonneg (next + signedOffset b)
    have := word_nonneg (next + signedOffset b')
    simp only [number] at hnumber
    have htarget : word (next + signedOffset b) = word (next + signedOffset b') := by omega
    rw [signedOffset_injective htarget]
  | immediate | zeroPage | zeroPageX | zeroPageY | indexedIndirect | indirectIndexed =>
    obtain ⟨b, rfl⟩ := List.length_eq_one_iff.mp h
    obtain ⟨b', rfl⟩ := List.length_eq_one_iff.mp h'
    rw [UInt8.toNat_inj.mp hnumber]
  | absolute | absoluteX | absoluteY | indirect =>
    obtain ⟨lo, hi, rfl⟩ := List.length_eq_two.mp h
    obtain ⟨lo', hi', rfl⟩ := List.length_eq_two.mp h'
    have := wordOf_range lo hi
    have := wordOf_range lo' hi'
    simp only [number] at hnumber
    have hword : wordOf lo hi = wordOf lo' hi' := by omega
    obtain ⟨rfl, rfl⟩ := wordOf_injective hword
    rfl

/-- The text of an operand tells its frame. -/
theorem frame?_of_written (h : operand.length = mode.operandLength)
    (h' : operand'.length = mode'.operandLength)
    (hsame : mode.written operand next = mode'.written operand' next') :
    mode.frame? = mode'.frame? := by
  cases hf : mode.frame? with
  | none =>
    cases hf' : mode'.frame? with
    | none => rfl
    | some f' => simp [written, hf, hf', Frame.chars] at hsame
  | some f =>
    cases hf' : mode'.frame? with
    | none => simp [written, hf, hf', Frame.chars] at hsame
    | some f' =>
      simp only [written, hf, hf'] at hsame
      rw [(Frame.chars_injective (number_lt hf h next) (number_lt hf' h' next') hsame).1]

/-- Where the mode and the address of the next instruction are known, the text gives the bytes. -/
theorem written_injective (h : operand.length = mode.operandLength)
    (h' : operand'.length = mode.operandLength)
    (hsame : mode.written operand next = mode.written operand' next) : operand = operand' := by
  cases hf : mode.frame? with
  | none =>
    rw [frame?_eq_none hf] at h h'
    rw [List.length_eq_zero_iff.mp h, List.length_eq_zero_iff.mp h']
  | some f =>
    simp only [written, hf] at hsame
    exact number_injective h h'
      (Frame.chars_injective (number_lt hf h next) (number_lt hf h' next) hsame).2

end Mode

end Micro6502
