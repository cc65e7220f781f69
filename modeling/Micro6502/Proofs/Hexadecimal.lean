import Mathlib.Data.List.Basic
import Mathlib.Data.List.Induction
import Mathlib.Data.Nat.Digits.Defs
import Micro6502.Text.Hex

namespace Micro6502.Text.Hex

def number? (cs : List Char) : Option Nat :=
  cs.foldlM (fun n c => (digit? c).map (16 * n + ·)) 0

theorem number?_concat (cs : List Char) (c : Char) :
    number? (cs ++ [c]) = (number? cs).bind fun n => (digit? c).map (16 * n + ·) := by
  simp [number?, List.foldlM_append]

theorem digit?_digitChar {n : Nat} (h : n < 16) : digit? n.digitChar.toUpper = some n := by
  have hall : ∀ n < 16, digit? (Nat.digitChar n).toUpper = some n := by decide
  exact hall n h

theorem number?_toDigits (n : Nat) :
    number? ((Nat.toDigits 16 n).map Char.toUpper) = some n := by
  induction n using Nat.strongRecOn with
  | ind n ih =>
    by_cases h : n < 16
    · rw [Nat.toDigits_of_lt_base h]
      simp [number?, digit?_digitChar h]
    · have hdigit : digit? (n % 16).digitChar.toUpper = some (n % 16) :=
        digit?_digitChar (Nat.mod_lt n (by decide))
      rw [Nat.toDigits_of_base_le (by decide) (by omega), List.map_append, List.map_singleton,
        number?_concat, ih (n / 16) (by omega), Option.bind_some, hdigit, Option.map_some]
      congr 1
      omega

/-- Zeros in front do not count. -/
theorem number?_zeros (count : Nat) (cs : List Char) :
    number? (List.replicate count '0' ++ cs) = number? cs := by
  induction count with
  | zero => rfl
  | succ count ih => exact ih

theorem number?_upper (width n : Nat) : number? (upper width n).toList = some n := by
  have hn : ¬ ((n : Int) < 0) := by omega
  have hzeros : ∀ count, (List.replicate count '0').map Char.toUpper = List.replicate count '0' :=
    fun count => List.map_replicate
  simp only [upper, if_neg hn, padded, Int.natAbs_natCast, List.map_append, hzeros,
    String.toList_ofList, number?_zeros, number?_toDigits]

/-- Nothing but digits denotes a number. -/
theorem isSome_digit? {cs : List Char} {n : Nat} (h : number? cs = some n) {c : Char}
    (hc : c ∈ cs) : (digit? c).isSome = true := by
  induction cs using List.reverseRecOn generalizing n with
  | nil => cases hc
  | append_singleton cs d ih =>
    rw [number?_concat] at h
    obtain ⟨k, hk, hd⟩ := Option.bind_eq_some_iff.mp h
    obtain ⟨v, hv, -⟩ := Option.map_eq_some_iff.mp hd
    rcases List.mem_append.mp hc with hc | hc
    · exact ih hk hc
    · rw [List.mem_singleton.mp hc, hv]
      rfl

/-- A number that fits fills the places exactly. -/
theorem length_upper {width n : Nat} (hw : 0 < width) (hn : n < 16 ^ width) :
    (upper width n).toList.length = width := by
  have hsign : ¬ ((n : Int) < 0) := by omega
  have hdigits := Nat.toDigits_length 16 n width hw hn
  simp only [upper, if_neg hsign, padded, Int.natAbs_natCast, String.toList_ofList, List.length_map,
    List.length_append, List.length_replicate]
  omega

theorem toNat_toUpper (c : Char) :
    c.toUpper.toNat = if 0x61 ≤ c.toNat ∧ c.toNat ≤ 0x7A then c.toNat - 0x20 else c.toNat := by
  have hlower : ('a'.val ≤ c.val ∧ c.val ≤ 'z'.val) ↔ (0x61 ≤ c.toNat ∧ c.toNat ≤ 0x7A) := by
    rw [UInt32.le_iff_toNat_le, UInt32.le_iff_toNat_le]
    rfl
  unfold Char.toUpper
  split
  · rename_i h
    rw [if_pos (hlower.mp h)]
    have hrange := hlower.mp h
    change (c.val + ('A'.val - 'a'.val)).toNat = c.val.toNat - 0x20
    change 0x61 ≤ c.val.toNat ∧ c.val.toNat ≤ 0x7A at hrange
    have hstep : ('A'.val - 'a'.val).toNat = 0xFFFFFFE0 := rfl
    rw [UInt32.toNat_add, hstep]
    omega
  · rename_i h
    rw [if_neg (fun hrange => h (hlower.mpr hrange))]

theorem digit?_eq_some {c : Char} {n : Nat} :
    digit? c = some n ↔ (n < 10 ∧ c.toNat = 0x30 + n) ∨
      (10 ≤ n ∧ n < 16 ∧ (c.toNat = 0x37 + n ∨ c.toNat = 0x57 + n)) := by
  simp only [digit?, Bool.and_eq_true, decide_eq_true_eq]
  split
  · rw [Option.some.injEq]
    omega
  split
  · rw [Option.some.injEq]
    omega
  split
  · rw [Option.some.injEq]
    omega
  · constructor
    · intro h
      cases h
    · intro h
      omega

/-- Either case of a digit goes. -/
theorem digit?_iff {c : Char} {n : Nat} :
    digit? c = some n ↔ n < 16 ∧ c.toUpper = n.digitChar.toUpper := by
  have hcode : ∀ n < 16, n.digitChar.toUpper.toNat = if n < 10 then 0x30 + n else 0x37 + n := by
    decide
  rw [digit?_eq_some, ← Char.toNat_inj, toNat_toUpper]
  by_cases hn : n < 16
  · rw [hcode n hn]
    split <;> split <;> omega
  · omega

theorem upper_two {high low : Nat} (hhigh : high < 16) (hlow : low < 16) :
    (upper 2 (16 * high + low : Nat)).toList = [high.digitChar.toUpper, low.digitChar.toUpper] := by
  have hsign : ¬ (((16 * high + low : Nat) : Int) < 0) := by omega
  simp only [upper, if_neg hsign, padded, Int.natAbs_natCast, String.toList_ofList]
  by_cases hzero : high = 0
  · subst hzero
    rw [Nat.mul_zero, Nat.zero_add, Nat.toDigits_of_lt_base hlow]
    rfl
  · have hquotient : (16 * high + low) / 16 = high := by omega
    have hremainder : (16 * high + low) % 16 = low := by omega
    rw [Nat.toDigits_of_base_le (by decide) (by omega), hquotient, hremainder,
      Nat.toDigits_of_lt_base hhigh]
    rfl

theorem high_lt (b : UInt8) : b.toNat / 16 < 16 :=
  Nat.div_lt_of_lt_mul b.toNat_lt

theorem low_lt (b : UInt8) : b.toNat % 16 < 16 :=
  Nat.mod_lt _ (by decide)

theorem upper_byte (b : UInt8) : (upper 2 b.toNat).toList =
    [(b.toNat / 16).digitChar.toUpper, (b.toNat % 16).digitChar.toUpper] := by
  rw [← upper_two (high_lt b) (low_lt b), Nat.div_add_mod]

/-- A word is two digits of either case if and only if it is a byte as it is written, but for the
case. -/
theorem pair?_eq_some {w : List Char} {b : UInt8} :
    pair? w = some b ↔ w.map Char.toUpper = (upper 2 b.toNat).toList := by
  rw [upper_byte]
  constructor
  · intro h
    match w, h with
    | [high, low], h =>
      simp only [pair?, Option.bind_eq_bind, Option.bind_eq_some_iff, Option.some.injEq] at h
      obtain ⟨x, hx, y, hy, rfl⟩ := h
      obtain ⟨hx16, hxc⟩ := digit?_iff.mp hx
      obtain ⟨hy16, hyc⟩ := digit?_iff.mp hy
      have hvalue : (UInt8.ofNat (16 * x + y)).toNat = 16 * x + y := by
        rw [UInt8.toNat_ofNat']
        omega
      have hquotient : (16 * x + y) / 16 = x := by omega
      have hremainder : (16 * x + y) % 16 = y := by omega
      rw [hvalue, hquotient, hremainder, List.map_cons, List.map_cons, hxc, hyc]
      rfl
  · intro h
    have hlength : w.length = 2 := by simpa using congrArg List.length h
    obtain ⟨high, low, rfl⟩ := List.length_eq_two.mp hlength
    simp only [List.map_cons, List.map_nil, List.cons.injEq, and_true] at h
    have hx := digit?_iff.mpr ⟨high_lt b, h.1⟩
    have hy := digit?_iff.mpr ⟨low_lt b, h.2⟩
    have hvalue : UInt8.ofNat (16 * (b.toNat / 16) + b.toNat % 16) = b := by
      rw [Nat.div_add_mod]
      exact UInt8.ofNat_toNat
    rw [pair?, hx, Option.bind_eq_bind, Option.bind_some, hy, Option.bind_some, hvalue]

/-- A byte as it is written is read as this byte. -/
theorem pair?_upper (b : UInt8) : pair? (upper 2 b.toNat).toList = some b := by
  have hcase : ∀ n < 16, n.digitChar.toUpper.toUpper = n.digitChar.toUpper := by decide
  rw [pair?_eq_some, upper_byte, List.map_cons, List.map_cons, hcase _ (high_lt b),
    hcase _ (low_lt b)]
  rfl

def digits : List Char := "0123456789ABCDEFabcdef".toList

theorem mem_digits {c : Char} : c ∈ digits ↔ ∃ n, digit? c = some n := by
  have hinjective : Function.Injective Char.toNat := fun _ _ h => Char.toNat_inj.mp h
  have hmem : c ∈ digits ↔ c.toNat ∈ digits.map Char.toNat :=
    (List.mem_map_of_injective hinjective).symm
  have hcodes : digits.map Char.toNat =
      [48, 49, 50, 51, 52, 53, 54, 55, 56, 57, 65, 66, 67, 68, 69, 70, 97, 98, 99, 100, 101, 102] := by
    rfl
  simp only [hmem, hcodes, digit?_eq_some, List.mem_cons, List.not_mem_nil, or_false]
  constructor
  · intro h
    by_cases hdecimal : c.toNat < 0x40
    · exact ⟨c.toNat - 0x30, by omega⟩
    by_cases hupper : c.toNat < 0x60
    · exact ⟨c.toNat - 0x37, by omega⟩
    · exact ⟨c.toNat - 0x57, by omega⟩
  · rintro ⟨n, h⟩
    omega

theorem isSome_pair? {w : List Char} :
    (∃ b, pair? w = some b) ↔ ∃ high low, w = [high, low] ∧ high ∈ digits ∧ low ∈ digits := by
  constructor
  · rintro ⟨b, h⟩
    match w, h with
    | [high, low], h =>
      simp only [pair?, Option.bind_eq_bind, Option.bind_eq_some_iff] at h
      obtain ⟨x, hx, y, hy, -⟩ := h
      exact ⟨high, low, rfl, mem_digits.mpr ⟨x, hx⟩, mem_digits.mpr ⟨y, hy⟩⟩
  · rintro ⟨high, low, rfl, hhigh, hlow⟩
    obtain ⟨x, hx⟩ := mem_digits.mp hhigh
    obtain ⟨y, hy⟩ := mem_digits.mp hlow
    exact ⟨UInt8.ofNat (16 * x + y), by simp [pair?, hx, hy]⟩

end Micro6502.Text.Hex
