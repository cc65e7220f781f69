import Micro6502.View

namespace Micro6502

namespace Text

/-- The capital I with a dot, which in lower case is a small one and a dot of its own. -/
def dottedI : Char := '\u0130'

theorem lowerOf_dottedI : lowerOf dottedI = ['i', '\u0307'] := by decide

theorem toNat_eq_dottedI {c : Char} : c.toNat = 0x130 ↔ c = dottedI := by
  rw [← Char.toNat_inj]
  rfl

/-- Every other character is a single one in lower case too. -/
theorem lowerOf_single {c : Char} (h : c ≠ dottedI) : ∃ d, lowerOf c = [d] := by
  have hlong : longLowers.find? (·.1 == c.toNat) = none := by
    have hcode : 0x130 ≠ c.toNat := fun heq => h (toNat_eq_dottedI.mp heq.symm)
    simp [longLowers, hcode]
  unfold lowerOf mapCase
  rw [hlong]
  split
  · exact ⟨_, rfl⟩
  · cases lowerRuns.find? (·.covers c.toNat) with
    | none => exact ⟨c, rfl⟩
    | some run => exact ⟨_, rfl⟩

end Text

def Arrow.letter : Arrow → Char
  | up => 'w'
  | left => 'a'
  | down => 's'
  | right => 'd'

theorem Arrow.code_eq (arrow : Arrow) : arrow.code = UInt8.ofNat arrow.letter.toNat := by
  cases arrow <;> rfl

namespace View

variable {k : Key} {c d : Char} {arrow : Arrow}

theorem press_byte (s : Screen) (b : Byte) : s.press (b : Int) = { s with latch := b } := by
  rw [Screen.press, byte_val]

theorem type_arrow (h : k.arrow = some arrow) (s : Screen) :
    type k s = .ok (false, { s with latch := UInt8.ofNat arrow.letter.toNat }) := by
  have hcode : k.code? = .ok (some arrow.code) := by
    unfold Key.code?
    rw [h]
  rw [type, hcode, ← Arrow.code_eq, ← press_byte]
  rfl

theorem type_silent (h : k.arrow = none) (htext : k.text.toList = []) (s : Screen) :
    type k s = .ok (true, s) := by
  have hcode : k.code? = .ok none := by
    unfold Key.code?
    rw [h, htext]
  rw [type, hcode]
  rfl

theorem type_letter {rest : List Char} (h : k.arrow = none) (htext : k.text.toList = c :: rest)
    (hlower : Text.lowerOf c = [d]) (s : Screen) :
    type k s = .ok (false, { s with latch := UInt8.ofNat d.toNat }) := by
  have hbyte : byte (d.toNat : Int) = UInt8.ofNat d.toNat := by
    apply UInt8.toNat_inj.mp
    simp only [byte, UInt8.ofInt, UInt8.toNat_ofNat']
    omega
  have hcode : k.code? = .ok (some (UInt8.ofNat d.toNat)) := by
    unfold Key.code?
    rw [h, htext]
    simp only [hlower, hbyte]
  rw [type, hcode, ← press_byte]
  rfl

theorem type_dottedI {rest : List Char} (h : k.arrow = none)
    (htext : k.text.toList = Text.dottedI :: rest) (s : Screen) :
    type k s = .error (.wideKey 2) := by
  have hcode : k.code? = .error (.wideKey 2) := by
    unfold Key.code?
    rw [h, htext]
    simp only [Text.lowerOf_dottedI]
    rfl
  rw [type, hcode]
  rfl

/-- A key fails if and only if it is no arrow and its text begins with a dotted capital I. Else an
arrow latches its letter and a text the low byte of its first character in lower case, and a key
with neither is passed on; nothing but the latch changes. -/
theorem type_outcome (k : Key) (s : Screen) :
    ((∃ e, type k s = .error e) ↔ k.arrow = none ∧ k.text.toList.head? = some Text.dottedI) ∧
    ((∃ arrow, k.arrow = some arrow ∧
        type k s = .ok (false, { s with latch := UInt8.ofNat arrow.letter.toNat })) ∨
      (k.arrow = none ∧ k.text = "" ∧ type k s = .ok (true, s)) ∨
      (∃ c d, k.arrow = none ∧ k.text.toList.head? = some c ∧ Text.lowerOf c = [d] ∧
        type k s = .ok (false, { s with latch := UInt8.ofNat d.toNat })) ∨
      (k.arrow = none ∧ k.text.toList.head? = some Text.dottedI ∧
        type k s = .error (.wideKey 2))) := by
  cases harrow : k.arrow with
  | some arrow =>
    have htype := type_arrow harrow s
    exact ⟨by simp [htype], .inl ⟨arrow, rfl, htype⟩⟩
  | none =>
    cases htext : k.text.toList with
    | nil =>
      have htype := type_silent harrow htext s
      exact ⟨by simp [htype], .inr (.inl ⟨rfl, String.toList_eq_nil_iff.mp htext, htype⟩)⟩
    | cons c rest =>
      by_cases hc : c = Text.dottedI
      · subst hc
        have htype := type_dottedI harrow htext s
        exact ⟨by simp [htype], .inr (.inr (.inr ⟨rfl, rfl, htype⟩))⟩
      · obtain ⟨d, hd⟩ := Text.lowerOf_single hc
        have htype := type_letter harrow htext hd s
        exact ⟨by simp [htype, hc], .inr (.inr (.inl ⟨c, d, rfl, rfl, hd, htype⟩))⟩

/-- A key with the dotted capital I latches nothing; it fails for its kind. -/
theorem type_fails :
    ∃ e, type ⟨none, "\u0130"⟩ (Screen.blank 32 32) = .error e ∧ e.kind = .type :=
  ⟨.wideKey 2, rfl, rfl⟩

end View

end Micro6502
