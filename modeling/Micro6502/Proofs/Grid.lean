import Mathlib.Algebra.Order.Group.Unbundled.Int
import Micro6502.Io

namespace Micro6502

def IoConfig.column (c : IoConfig) (address : Int) : Int := address.fmod c.screenWidth

def IoConfig.row (c : IoConfig) (address : Int) : Int :=
  (address - c.screenStart).fdiv c.screenWidth

/-- The address lies in the screen's range, and not in an incomplete last row. -/
structure IoConfig.Owns (c : IoConfig) (address : Int) : Prop where
  start_le : c.screenStart ≤ address
  le_end : address ≤ c.screenEnd
  row_lt : c.row address < c.screenHeight

def IoConfig.owner (c : IoConfig) (x y : Int) : Int :=
  c.screenStart + y * c.screenWidth + (x - c.screenStart) % c.screenWidth

namespace IoConfig

variable {c : IoConfig} {a b x y : Int}

theorem column_eq (hw : 0 < c.screenWidth) (a : Int) : c.column a = a % c.screenWidth :=
  Int.fmod_eq_emod_of_nonneg a hw.le

theorem row_eq (hw : 0 < c.screenWidth) (a : Int) :
    c.row a = (a - c.screenStart) / c.screenWidth :=
  Int.fdiv_eq_ediv_of_nonneg _ hw.le

theorem height_eq (hw : 0 < c.screenWidth) :
    c.screenHeight = (c.screenEnd - c.screenStart + 1) / c.screenWidth :=
  Int.fdiv_eq_ediv_of_nonneg _ hw.le

theorem column_range (hw : 0 < c.screenWidth) (a : Int) :
    0 ≤ c.column a ∧ c.column a < c.screenWidth := by
  rw [column_eq hw]
  exact ⟨Int.emod_nonneg a hw.ne', Int.emod_lt_of_pos a hw⟩

theorem row_nonneg (hw : 0 < c.screenWidth) (ha : c.screenStart ≤ a) : 0 ≤ c.row a := by
  rw [row_eq hw]
  exact Int.ediv_nonneg (by omega) hw.le

/-- Two addresses of one row with the same column are the same. -/
theorem eq_of_pixel (hw : 0 < c.screenWidth) (hcolumn : c.column a = c.column b)
    (hrow : c.row a = c.row b) : a = b := by
  rw [column_eq hw, column_eq hw] at hcolumn
  rw [row_eq hw, row_eq hw] at hrow
  have hdvd : c.screenWidth ∣ a - b :=
    Int.dvd_of_emod_eq_zero (Int.emod_eq_emod_iff_emod_sub_eq_zero.mp hcolumn)
  have hclose : |a - b| < c.screenWidth := by
    have ha := Int.mul_ediv_add_emod (a - c.screenStart) c.screenWidth
    have hb := Int.mul_ediv_add_emod (b - c.screenStart) c.screenWidth
    have := Int.emod_nonneg (a - c.screenStart) hw.ne'
    have := Int.emod_nonneg (b - c.screenStart) hw.ne'
    have := Int.emod_lt_of_pos (a - c.screenStart) hw
    have := Int.emod_lt_of_pos (b - c.screenStart) hw
    rw [hrow] at ha
    rw [abs_lt]
    omega
  have := Int.eq_zero_of_abs_lt_dvd hdvd hclose
  omega

/-- No two addresses of the range own one place. -/
theorem place_eq_iff (hw : 0 < c.screenWidth) (ha : c.screenStart ≤ a) (hb : c.screenStart ≤ b) :
    (c.column a).toNat = (c.column b).toNat ∧ (c.row a).toNat = (c.row b).toNat ↔ a = b := by
  have hxa := c.column_range hw a
  have hxb := c.column_range hw b
  have hya := c.row_nonneg hw ha
  have hyb := c.row_nonneg hw hb
  constructor
  · rintro ⟨hcolumn, hrow⟩
    exact eq_of_pixel hw (by omega) (by omega)
  · rintro rfl
    exact ⟨rfl, rfl⟩

theorem row_owner (hw : 0 < c.screenWidth) (x y : Int) : c.row (c.owner x y) = y := by
  have hoffset : c.owner x y - c.screenStart =
      (x - c.screenStart) % c.screenWidth + y * c.screenWidth := by
    unfold owner
    omega
  have hsmall : (x - c.screenStart) % c.screenWidth / c.screenWidth = 0 :=
    Int.ediv_eq_zero_of_lt (Int.emod_nonneg _ hw.ne') (Int.emod_lt_of_pos _ hw)
  rw [row_eq hw, hoffset, Int.add_mul_ediv_right _ _ hw.ne', hsmall, Int.zero_add]

theorem column_owner (hw : 0 < c.screenWidth) (h₀ : 0 ≤ x) (h₁ : x < c.screenWidth) (y : Int) :
    c.column (c.owner x y) = x := by
  rw [column_eq hw]
  calc c.owner x y % c.screenWidth
      = (c.screenStart + (x - c.screenStart) % c.screenWidth + y * c.screenWidth) %
          c.screenWidth := by
        unfold owner
        congr 1
        omega
    _ = (c.screenStart + (x - c.screenStart)) % c.screenWidth := by
        rw [Int.add_mul_emod_self_right, Int.add_emod_emod]
    _ = x := by
        rw [show c.screenStart + (x - c.screenStart) = x by omega]
        exact Int.emod_eq_of_lt h₀ h₁

theorem owns_owner (hw : 0 < c.screenWidth) (hy₀ : 0 ≤ y) (hy₁ : y < c.screenHeight) (x : Int) :
    c.Owns (c.owner x y) := by
  have hr₀ := Int.emod_nonneg (x - c.screenStart) hw.ne'
  have hr₁ := Int.emod_lt_of_pos (x - c.screenStart) hw
  have hrows : (y + 1) * c.screenWidth ≤ c.screenEnd - c.screenStart + 1 := by
    rw [height_eq hw] at hy₁
    exact (Int.le_ediv_iff_mul_le hw).mp hy₁
  have hy : 0 ≤ y * c.screenWidth := Int.mul_nonneg hy₀ hw.le
  rw [Int.add_mul, Int.one_mul] at hrows
  refine ⟨?_, ?_, by rwa [row_owner hw]⟩
  · unfold owner
    omega
  · unfold owner
    omega

end IoConfig

namespace Screen

structure Shaped (s : Screen) : Prop where
  rows : s.rows.size = s.height.toNat
  columns : ∀ (y : Nat) (row : Array Pixel), s.rows[y]? = some row → row.size = s.width.toNat

def at? (s : Screen) (x y : Nat) : Option Pixel := s.rows[y]?.bind (·[x]?)

variable {s : Screen} {x y : Int}

theorem val_colorOf (n : Int) : ((colorOf n : Color) : Int) = n % 16 := by
  simp only [colorOf, Fin.val_ofNat]
  omega

theorem shaped_blank (width height : Int) : (blank width height).Shaped := by
  refine ⟨by simp [blank], fun y row hrow => ?_⟩
  simp only [blank, Array.getElem?_replicate, Option.ite_none_right_eq_some,
    Option.some.injEq] at hrow
  simp [← hrow.2, blank]

theorem at?_blank {width height : Int} {x y : Nat} (hx : (x : Int) < width)
    (hy : (y : Int) < height) : (blank width height).at? x y = some {} := by
  have hx : x < width.toNat := by omega
  have hy : y < height.toNat := by omega
  simp [at?, blank, hx, hy]

theorem fromEitherEnd_nonneg {α : Type} {xs : Array α} {i : Int} {a : α} (hi : 0 ≤ i)
    (h : xs[i.toNat]? = some a) : fromEitherEnd xs i = .ok a := by
  simp [fromEitherEnd, Int.not_lt.mpr hi, h]

/-- Looking at a place of the grid gives the colour there. -/
theorem pixel_eq {p : Pixel} (hx : 0 ≤ x) (hy : 0 ≤ y) (h : s.at? x.toNat y.toNat = some p) :
    s.pixel x y = .ok p.color := by
  obtain ⟨row, hrow, hp⟩ := Option.bind_eq_some_iff.mp h
  rw [pixel, fromEitherEnd_nonneg hy hrow]
  change (do return (← fromEitherEnd row x).color) = _
  rw [fromEitherEnd_nonneg hx hp]
  rfl

theorem Shaped.update (h : s.Shaped) (x y color : Int) : (s.update x y color).Shaped := by
  unfold Screen.update
  split
  · refine ⟨by simpa using h.rows, fun i row hrow => ?_⟩
    simp only [Array.getElem?_modify] at hrow
    split at hrow
    · obtain ⟨old, hold, rfl⟩ := Option.map_eq_some_iff.mp hrow
      simpa using h.columns i old hold
    · exact h.columns i row hrow
  · exact h

@[simp] theorem width_update (s : Screen) (x y color : Int) :
    (s.update x y color).width = s.width := by
  unfold update
  split <;> rfl

@[simp] theorem height_update (s : Screen) (x y color : Int) :
    (s.update x y color).height = s.height := by
  unfold update
  split <;> rfl

theorem update_outside (h : ¬ (0 ≤ x ∧ x < s.width ∧ 0 ≤ y ∧ y < s.height)) (color : Int) :
    s.update x y color = s := by
  rw [update, if_neg h]

/-- Painting changes one place alone. -/
theorem at?_update (hx : 0 ≤ x ∧ x < s.width) (hy : 0 ≤ y ∧ y < s.height) (color : Int)
    (i j : Nat) :
    (s.update x y color).at? i j =
      if i = x.toNat ∧ j = y.toNat then (s.at? i j).map fun _ => ⟨colorOf color, true⟩
      else s.at? i j := by
  rw [update, if_pos ⟨hx.1, hx.2, hy.1, hy.2⟩]
  simp only [at?, Array.getElem?_modify]
  by_cases hj : y.toNat = j
  · subst hj
    cases s.rows[y.toNat]? with
    | none => simp
    | some row =>
      by_cases hi : x.toNat = i
      · simp [hi, Array.getElem?_modify]
      · simp [hi, Ne.symm hi, Array.getElem?_modify]
  · simp [hj, Ne.symm hj]

/-- The rows of a screen are its places one by one. -/
theorem colors_eq (h : s.Shaped) {f : Nat → Nat → Color}
    (hf : ∀ x y : Nat, x < s.width.toNat → y < s.height.toNat →
      (s.at? x y).map (·.color) = some (f x y)) :
    s.colors = (List.range s.height.toNat).map fun y =>
      (List.range s.width.toNat).map fun x => f x y := by
  apply List.ext_getElem
  · simp [colors, h.rows]
  · intro y hy _
    have hy : y < s.rows.size := by simpa [colors] using hy
    have hcolumns : s.rows[y].size = s.width.toNat := h.columns y s.rows[y] (by simp [hy])
    apply List.ext_getElem
    · simp [colors, hcolumns]
    · intro x hx _
      have hx : x < s.rows[y].size := by simpa [colors] using hx
      have hp := hf x y (hcolumns ▸ hx) (h.rows ▸ hy)
      simp only [at?, Array.getElem?_eq_getElem hy, Option.bind_some,
        Array.getElem?_eq_getElem hx, Option.map_some, Option.some.injEq] at hp
      simpa [colors] using hp

end Screen

end Micro6502
