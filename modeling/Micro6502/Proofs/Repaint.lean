import Micro6502.Proofs.Grid
import Micro6502.View

namespace Micro6502

namespace Screen

variable {s t : Screen} {x y : Nat}

def places (s : Screen) : List (Nat × Nat) :=
  (List.range s.height.toNat).flatMap fun y => (List.range s.width.toNat).map fun x => (x, y)

def paintAll (color : Int) (s : Screen) (ps : List (Nat × Nat)) : Screen :=
  ps.foldl (fun s p => s.update p.1 p.2 color) s

theorem mem_places : (x, y) ∈ s.places ↔ x < s.width.toNat ∧ y < s.height.toNat := by
  simp only [places, List.mem_flatMap, List.mem_range, List.mem_map, Prod.mk.injEq]
  constructor
  · rintro ⟨_, hy, _, hx, rfl, rfl⟩
    exact ⟨hx, hy⟩
  · rintro ⟨hx, hy⟩
    exact ⟨y, hy, x, hx, rfl, rfl⟩

@[simp] theorem latch_update (s : Screen) (x y color : Int) :
    (s.update x y color).latch = s.latch := by
  unfold update
  split <;> rfl

/-- A grid has the places that its size says, and no others. -/
theorem Shaped.at?_isSome (h : s.Shaped) :
    (s.at? x y).isSome = true ↔ x < s.width.toNat ∧ y < s.height.toNat := by
  rw [at?, ← h.rows]
  by_cases hy : y < s.rows.size
  · have hrow : s.rows[y].size = s.width.toNat := h.columns y s.rows[y] (by simp [hy])
    simp [hy, hrow]
  · simp [hy]

theorem Shaped.at?_none (h : s.Shaped) (hout : ¬ (x < s.width.toNat ∧ y < s.height.toNat)) :
    s.at? x y = none := by
  rw [← h.at?_isSome] at hout
  simpa using hout

/-- Painting changes one place alone, and nothing where the grid does not have it. -/
theorem Shaped.at?_paint (h : s.Shaped) (x y : Nat) (color : Int) (i j : Nat) :
    (s.update x y color).at? i j =
      if i = x ∧ j = y then (s.at? i j).map fun _ => ⟨colorOf color, true⟩ else s.at? i j := by
  by_cases hin : x < s.width.toNat ∧ y < s.height.toNat
  · have hx : 0 ≤ (x : Int) ∧ (x : Int) < s.width := by omega
    have hy : 0 ≤ (y : Int) ∧ (y : Int) < s.height := by omega
    simpa using at?_update hx hy color i j
  · rw [update_outside (by omega)]
    split
    · rename_i hij
      obtain ⟨rfl, rfl⟩ := hij
      rw [h.at?_none hin]
      rfl
    · rfl

theorem Shaped.paintAll (h : s.Shaped) (color : Int) (ps : List (Nat × Nat)) :
    (s.paintAll color ps).Shaped := by
  induction ps generalizing s with
  | nil => exact h
  | cons p rest ih => exact ih (h.update p.1 p.2 color)

theorem size_paintAll (s : Screen) (color : Int) (ps : List (Nat × Nat)) :
    (s.paintAll color ps).width = s.width ∧ (s.paintAll color ps).height = s.height ∧
      (s.paintAll color ps).latch = s.latch := by
  induction ps generalizing s with
  | nil => exact ⟨rfl, rfl, rfl⟩
  | cons p rest ih =>
    obtain ⟨hw, hh, hl⟩ := ih (s.update p.1 p.2 color)
    exact ⟨hw.trans (width_update _ _ _ _), hh.trans (height_update _ _ _ _),
      hl.trans (latch_update _ _ _ _)⟩

/-- Each row asks the screen anew how wide it is, and no painting changes that. -/
theorem clear_eq (s : Screen) (color : Int) : s.clear color = s.paintAll color s.places := by
  have hrows : ∀ (ys : List Nat) (t : Screen), t.width = s.width →
      ys.foldl (fun t (y : Nat) =>
        (List.range t.width.toNat).foldl (fun t (x : Nat) => t.update x y color) t) t =
      t.paintAll color (ys.flatMap fun y => (List.range s.width.toNat).map fun x => (x, y)) := by
    intro ys
    induction ys with
    | nil => exact fun _ _ => rfl
    | cons y rest ih =>
      intro t ht
      have hrow : (List.range t.width.toNat).foldl (fun t (x : Nat) => t.update x y color) t =
          t.paintAll color ((List.range s.width.toNat).map fun x => (x, y)) := by
        rw [ht, paintAll, List.foldl_map]
      rw [List.foldl_cons, hrow, ih _ ((size_paintAll _ _ _).1.trans ht), List.flatMap_cons,
        paintAll, paintAll, paintAll, List.foldl_append]
  exact hrows _ s rfl

theorem Shaped.at?_paintAll (h : s.Shaped) (color : Int) (ps : List (Nat × Nat)) (i j : Nat) :
    (s.paintAll color ps).at? i j =
      if (i, j) ∈ ps then (s.at? i j).map fun _ => ⟨colorOf color, true⟩ else s.at? i j := by
  induction ps generalizing s with
  | nil => rfl
  | cons p rest ih =>
    obtain ⟨x, y⟩ := p
    change ((s.update x y color).paintAll color rest).at? i j = _
    rw [ih (h.update x y color), h.at?_paint]
    by_cases hp : i = x ∧ j = y
    · obtain ⟨rfl, rfl⟩ := hp
      simp [Function.comp_def]
    · simp [hp]

/-- A grid that is painted all over has one colour and is marked everywhere. -/
theorem Shaped.at?_clear (h : s.Shaped) (color : Int) (i j : Nat) :
    (s.clear color).at? i j = (s.at? i j).map fun _ => ⟨colorOf color, true⟩ := by
  rw [clear_eq, h.at?_paintAll]
  split
  · rfl
  · rename_i hout
    rw [h.at?_none fun hin => hout (mem_places.mpr hin)]
    rfl

theorem Shaped.clear (h : s.Shaped) (color : Int) : (s.clear color).Shaped := by
  rw [clear_eq]
  exact h.paintAll color _

/-- Screens of one size and latch with the same pixels are the same. -/
theorem Shaped.ext (hs : s.Shaped) (ht : t.Shaped) (hw : s.width = t.width)
    (hh : s.height = t.height) (hl : s.latch = t.latch)
    (hat : ∀ i j, s.at? i j = t.at? i j) : s = t := by
  have hrows : s.rows = t.rows := by
    apply Array.ext
    · rw [hs.rows, ht.rows, hh]
    · intro j hj hj'
      have hrow : s.rows[j].size = s.width.toNat := hs.columns j s.rows[j] (by simp [hj])
      have hrow' : t.rows[j].size = t.width.toNat := ht.columns j t.rows[j] (by simp [hj'])
      apply Array.ext
      · rw [hrow, hrow', hw]
      · intro i hi hi'
        simpa [at?, hj, hj', hi, hi'] using hat i j
  obtain ⟨width, height, rows, latch⟩ := s
  obtain ⟨width', height', rows', latch'⟩ := t
  simp only at hw hh hl hrows
  subst hw hh hl hrows
  rfl

theorem at?_untouched (s : Screen) (i j : Nat) :
    s.untouched.at? i j = (s.at? i j).map fun p => { p with touched := false } := by
  simp only [at?, untouched, Array.getElem?_map]
  cases s.rows[j]? with
  | none => rfl
  | some row => simp

theorem Shaped.untouched (h : s.Shaped) : s.untouched.Shaped := by
  refine ⟨by simpa [Screen.untouched] using h.rows, fun j row hrow => ?_⟩
  simp only [Screen.untouched, Array.getElem?_map] at hrow
  obtain ⟨old, hold, rfl⟩ := Option.map_eq_some_iff.mp hrow
  rw [Array.size_map]
  exact h.columns j old hold

theorem mem_touched :
    (x, y) ∈ s.touched ↔ x < s.width.toNat ∧ y < s.height.toNat ∧
      ∃ p, s.at? x y = some p ∧ p.touched = true := by
  simp only [touched, List.mem_flatMap, List.mem_range, List.mem_filterMap,
    Option.ite_none_right_eq_some, Option.some.injEq, Prod.mk.injEq, Option.any_eq_true, at?]
  constructor
  · rintro ⟨_, hx, _, hy, hp, rfl, rfl⟩
    exact ⟨hx, hy, hp⟩
  · rintro ⟨hx, hy, hp⟩
    exact ⟨x, hx, y, hy, hp, rfl, rfl⟩

@[simp] theorem touched_untouched (s : Screen) : s.untouched.touched = [] := by
  apply List.eq_nil_iff_forall_not_mem.mpr
  rintro ⟨x, y⟩ hmem
  obtain ⟨-, -, p, hp, htouched⟩ := mem_touched.mp hmem
  rw [at?_untouched] at hp
  obtain ⟨q, -, rfl⟩ := Option.map_eq_some_iff.mp hp
  cases htouched

/-- Where nothing is marked there are no marks to take off. -/
theorem Shaped.untouched_eq (h : s.Shaped) (hnone : s.touched = []) : s.untouched = s := by
  refine h.untouched.ext h rfl rfl rfl fun i j => ?_
  rw [at?_untouched]
  cases hp : s.at? i j with
  | none => rfl
  | some p =>
    have hin := h.at?_isSome.mp (by rw [hp]; rfl)
    obtain ⟨color, touched⟩ := p
    cases touched with
    | false => rfl
    | true =>
      have hmem : (i, j) ∈ s.touched := mem_touched.mpr ⟨hin.1, hin.2, _, hp, rfl⟩
      rw [hnone] at hmem
      cases hmem

/-- A grid that is painted black, without marks, does not tell what was there before. -/
theorem Shaped.untouched_clear (h : s.Shaped) :
    (s.clear 0).untouched = { blank s.width s.height with latch := s.latch } := by
  have hblank : (blank s.width s.height).Shaped := shaped_blank _ _
  obtain ⟨hw, hh, hl⟩ := size_paintAll s 0 s.places
  rw [← clear_eq] at hw hh hl
  refine (h.clear 0).untouched.ext ⟨hblank.rows, hblank.columns⟩ hw hh hl fun i j => ?_
  change _ = (blank s.width s.height).at? i j
  rw [at?_untouched, h.at?_clear]
  by_cases hin : i < s.width.toNat ∧ j < s.height.toNat
  · obtain ⟨p, hp⟩ := Option.isSome_iff_exists.mp (h.at?_isSome.mpr hin)
    rw [hp, at?_blank (by omega) (by omega)]
    rfl
  · rw [h.at?_none hin, hblank.at?_none hin]
    rfl

end Screen

/-- The view takes the marks off, whether or not it asks for a repaint. -/
theorem View.refresh_untouched (v : View) {s : Screen} (h : s.Shaped) :
    (v.refresh s).2.2 = s.untouched := by
  unfold refresh
  split
  · rename_i hempty
    exact (h.untouched_eq (List.isEmpty_iff.mp hempty)).symm
  · rfl

end Micro6502
