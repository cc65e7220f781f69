import Mathlib.Data.List.DropRight
import Mathlib.Data.List.Induction
import Micro6502.Proofs.Repaint

namespace Micro6502

inductive Stroke where
  | update (x y color : Int)
  | clear (color : Int)
  | take
  | press (key : Int)
  | refresh
  deriving DecidableEq, Repr

namespace Stroke

def act (a : Stroke) (p : View × Screen) : View × Screen :=
  match a with
  | update x y color => (p.1, p.2.update x y color)
  | clear color => (p.1, p.2.clear color)
  | take => (p.1, p.2.untouched)
  | press key => (p.1, p.2.press key)
  | refresh => (p.1.refresh p.2).2

def takes : Stroke → Bool
  | take | refresh => true
  | _ => false

/-- Whether the stroke paints the place, be it in the colour that it has. -/
def paints (x y : Nat) : Stroke → Bool
  | update i j _ => i = x ∧ j = y
  | clear _ => true
  | _ => false

def shown (strokes : List Stroke) : List Stroke := strokes.rdropWhile (!·.takes)

def pending (strokes : List Stroke) : List Stroke := strokes.rtakeWhile (!·.takes)

def run (strokes : List Stroke) (p : View × Screen) : View × Screen :=
  strokes.foldl (fun p a => a.act p) p

variable {a : Stroke} {strokes : List Stroke} {p : View × Screen}

theorem run_concat (strokes : List Stroke) (a : Stroke) (p : View × Screen) :
    run (strokes ++ [a]) p = a.act (run strokes p) := by
  rw [run, List.foldl_append]
  rfl

theorem run_pending (strokes : List Stroke) (p : View × Screen) :
    run (pending strokes) (run (shown strokes) p) = run strokes p := by
  rw [run, run, ← List.foldl_append, shown, pending, List.rdropWhile_append_rtakeWhile]
  rfl

theorem shown_take (h : a.takes = true) : shown (strokes ++ [a]) = strokes ++ [a] :=
  List.rdropWhile_concat_neg _ _ _ (by simp [h])

theorem shown_skip (h : a.takes = false) : shown (strokes ++ [a]) = shown strokes :=
  List.rdropWhile_concat_pos _ _ _ (by simp [h])

theorem takes_of_mem_pending (h : a ∈ pending strokes) : a.takes = false := by
  simpa using List.mem_rtakeWhile_imp h

/-- A view takes the marks off too, whether or not it asks for a repaint. -/
theorem act_take (ha : a.takes = true) (h : p.2.Shaped) : (a.act p).2 = p.2.untouched := by
  cases a with
  | take => rfl
  | refresh => exact View.refresh_untouched p.1 h
  | _ => cases ha

end Stroke

/-- A view that asks for no repaint found no marks. -/
theorem View.touched_of_idle {v : View} {s : Screen} (h : (v.refresh s).1 = false) :
    s.touched = [] := by
  unfold View.refresh at h
  split at h
  · rename_i hempty
    exact List.isEmpty_iff.mp hempty
  · cases h

namespace Screen

variable {s shown now : Screen} {width height x y : Nat} {a : Stroke} {since : List Stroke}

structure Sized (s : Screen) (width height : Nat) : Prop extends Shaped s where
  width_eq : s.width = width
  height_eq : s.height = height

theorem sized_blank (width height : Nat) : (blank width height).Sized width height :=
  ⟨shaped_blank _ _, rfl, rfl⟩

theorem Sized.act (h : s.Sized width height) (a : Stroke) (v : View) :
    (a.act (v, s)).2.Sized width height := by
  cases a with
  | update i j color =>
    exact ⟨h.toShaped.update i j color, (width_update s i j color).trans h.width_eq,
      (height_update s i j color).trans h.height_eq⟩
  | clear color =>
    obtain ⟨hwidth, hheight, -⟩ := size_paintAll s color s.places
    rw [← clear_eq] at hwidth hheight
    exact ⟨h.toShaped.clear color, hwidth.trans h.width_eq, hheight.trans h.height_eq⟩
  | take => exact ⟨h.toShaped.untouched, h.width_eq, h.height_eq⟩
  | press key => exact ⟨⟨h.rows, h.columns⟩, h.width_eq, h.height_eq⟩
  | refresh =>
    change (v.refresh s).2.2.Sized width height
    rw [View.refresh_untouched v h.toShaped]
    exact ⟨h.toShaped.untouched, h.width_eq, h.height_eq⟩

theorem Sized.run (h : s.Sized width height) (strokes : List Stroke) (v : View) :
    (Stroke.run strokes (v, s)).2.Sized width height := by
  induction strokes generalizing s v with
  | nil => exact h
  | cons a rest ih => exact ih (h.act a v) _

/-- A grid has a pixel at every place of its size. -/
theorem Sized.at?_some (h : s.Sized width height) (hx : x < width) (hy : y < height) :
    ∃ p, s.at? x y = some p := by
  have hw := h.width_eq
  have hh := h.height_eq
  exact Option.isSome_iff_exists.mp (h.toShaped.at?_isSome.mpr (by omega))

/-- The marked places are those whose pixel is marked. -/
theorem Sized.mem_touched (h : s.Sized width height) :
    (x, y) ∈ s.touched ↔ x < width ∧ y < height ∧ ∃ p, s.at? x y = some p ∧ p.touched = true := by
  rw [Screen.mem_touched, h.width_eq, h.height_eq, Int.toNat_natCast, Int.toNat_natCast]

/-- Every row is as long as the screen is wide, and there are as many as it is high. -/
theorem Sized.colors (h : s.Sized width height) :
    s.colors.length = height ∧ ∀ row ∈ s.colors, row.length = width := by
  refine ⟨by simp [Screen.colors, h.rows, h.height_eq], fun row hrow => ?_⟩
  obtain ⟨pixels, hpixels, rfl⟩ := List.mem_map.mp hrow
  obtain ⟨y, hy⟩ := Array.mem_iff_getElem?.mp (Array.mem_toList_iff.mp hpixels)
  have hlength := h.columns y pixels hy
  rw [h.width_eq, Int.toNat_natCast] at hlength
  simpa using hlength

/-- Painting at any integers changes the one place that they name, if the grid has it. -/
theorem Shaped.at?_stroke (h : s.Shaped) (i j color : Int) (x y : Nat) :
    (s.update i j color).at? x y =
      if i = x ∧ j = y then (s.at? x y).map fun _ => ⟨colorOf color, true⟩ else s.at? x y := by
  by_cases hsign : 0 ≤ i ∧ 0 ≤ j
  · obtain ⟨i, rfl⟩ := Int.eq_ofNat_of_zero_le hsign.1
    obtain ⟨j, rfl⟩ := Int.eq_ofNat_of_zero_le hsign.2
    rw [h.at?_paint]
    simp only [Int.natCast_inj, eq_comm]
  · rw [update_outside (by omega), if_neg (by omega)]

/-- A stroke that takes no marks off sets those of the places that it paints, and leaves all others
as they are. -/
theorem Shaped.at?_act (h : s.Shaped) (ha : a.takes = false) (v : View) :
    ∃ color, ∀ x y, (a.act (v, s)).2.at? x y =
      if a.paints x y then (s.at? x y).map fun _ => ⟨color, true⟩ else s.at? x y := by
  cases a with
  | update i j color =>
    refine ⟨colorOf color, fun x y => ?_⟩
    simpa [Stroke.paints, Stroke.act] using h.at?_stroke i j color x y
  | clear color => exact ⟨colorOf color, h.at?_clear color⟩
  | press key => exact ⟨0, fun _ _ => rfl⟩
  | take | refresh => cases ha

/-- Since the screen was shown, the strokes marked what they painted and left all else alone. -/
structure Marked (shown now : Screen) (since : List Stroke) : Prop where
  touched : ∀ x y p, now.at? x y = some p → (p.touched = true ↔ ∃ a ∈ since, a.paints x y = true)
  kept : ∀ x y, (∀ a ∈ since, a.paints x y = false) → now.at? x y = shown.at? x y

theorem Marked.act (hm : Marked shown now since) (h : now.Shaped) (ha : a.takes = false)
    (v : View) : Marked shown (a.act (v, now)).2 (since ++ [a]) := by
  obtain ⟨color, hat⟩ := h.at?_act ha v
  refine ⟨fun x y p hp => ?_, fun x y hnone => ?_⟩
  · rw [hat] at hp
    cases hpaints : a.paints x y with
    | true =>
      rw [hpaints, if_pos rfl] at hp
      obtain ⟨q, -, rfl⟩ := Option.map_eq_some_iff.mp hp
      simp [hpaints]
    | false =>
      rw [hpaints] at hp
      simp [hm.touched x y p hp, hpaints, or_and_right, exists_or]
  · rw [hat, hnone a (by simp)]
    exact hm.kept x y fun b hb => hnone b (List.mem_append_left _ hb)

/-- The marked places are those of the grid that were painted. -/
theorem Marked.mem_touched (hm : Marked shown now since) (h : now.Sized width height) :
    (x, y) ∈ now.touched ↔ x < width ∧ y < height ∧ ∃ a ∈ since, a.paints x y = true := by
  rw [h.mem_touched]
  refine and_congr_right fun hx => and_congr_right fun hy => ?_
  obtain ⟨p, hp⟩ := h.at?_some hx hy
  rw [← hm.touched x y p hp]
  simp [hp]

/-- What is not marked was not painted, and so is as it was. -/
theorem Marked.at?_eq (hm : Marked shown now since) (h : now.Sized width height) (hx : x < width)
    (hy : y < height) (hout : (x, y) ∉ now.touched) : now.at? x y = shown.at? x y := by
  refine hm.kept x y fun a ha => ?_
  by_contra hpaints
  exact hout ((hm.mem_touched h).mpr ⟨hx, hy, a, ha, by simpa using hpaints⟩)

theorem Sized.marked_run (h : s.Sized width height)
    (hs : ∀ x y p, s.at? x y = some p → p.touched = false) (v : View)
    (hsince : ∀ a ∈ since, a.takes = false) :
    Marked s (Stroke.run since (v, s)).2 since := by
  -- from the end of the strokes, since a later one hides an earlier one
  induction since using List.reverseRecOn with
  | nil => exact ⟨fun x y p hp => by simp [hs x y p hp], fun _ _ _ => rfl⟩
  | append_singleton since a ih =>
    have hbefore := ih fun b hb => hsince b (List.mem_append_left _ hb)
    rw [Stroke.run_concat]
    exact hbefore.act (h.run since v).toShaped (hsince a (by simp)) _

theorem blank_unmarked {p : Pixel} (h : (blank width height).at? x y = some p) :
    p.touched = false := by
  have hin := (shaped_blank width height).at?_isSome.mp (by rw [h]; rfl)
  have hx : (x : Int) < width := Int.lt_toNat.mp hin.1
  have hy : (y : Int) < height := Int.lt_toNat.mp hin.2
  rw [at?_blank hx hy] at h
  cases h
  rfl

/-- Nothing is marked on a new screen, nor where the marks were just taken off. -/
theorem shown_unmarked (strokes : List Stroke) (v : View) {p : Pixel}
    (hp : (Stroke.run (Stroke.shown strokes) (v, blank width height)).2.at? x y = some p) :
    p.touched = false := by
  induction strokes using List.reverseRecOn with
  | nil => exact blank_unmarked hp
  | append_singleton strokes a ih =>
    cases ha : a.takes with
    | false =>
      rw [Stroke.shown_skip ha] at hp
      exact ih hp
    | true =>
      rw [Stroke.shown_take ha, Stroke.run_concat, Stroke.act_take ha
        ((sized_blank width height).run strokes v).toShaped, at?_untouched] at hp
      obtain ⟨q, -, rfl⟩ := Option.map_eq_some_iff.mp hp
      rfl

theorem marked_pending (width height : Nat) (strokes : List Stroke) (v : View) :
    Marked (Stroke.run (Stroke.shown strokes) (v, blank width height)).2
      (Stroke.run strokes (v, blank width height)).2 (Stroke.pending strokes) := by
  rw [← Stroke.run_pending strokes]
  exact ((sized_blank width height).run _ v).marked_run (fun x y p => shown_unmarked strokes v) _
    fun a ha => Stroke.takes_of_mem_pending ha

theorem pixel_at {p : Pixel} (h : s.at? x y = some p) : s.pixel x y = .ok p.color :=
  pixel_eq (Int.natCast_nonneg x) (Int.natCast_nonneg y) h

/-- The picture is made of the colours at the places of the grid. -/
theorem Sized.colors_at (h : s.Sized width height) :
    s.colors = (List.range height).map fun y =>
      (List.range width).map fun x => ((s.at? x y).map (·.color)).getD 0 := by
  have hw := h.width_eq
  have hh := h.height_eq
  have hat : ∀ x y : Nat, x < s.width.toNat → y < s.height.toNat →
      (s.at? x y).map (·.color) = some (((s.at? x y).map (·.color)).getD 0) := by
    intro x y hx hy
    obtain ⟨p, hp⟩ := h.at?_some (x := x) (y := y) (by omega) (by omega)
    rw [hp]
    rfl
  rw [colors_eq h.toShaped hat, hw, hh, Int.toNat_natCast, Int.toNat_natCast]

/-- Screens of one size with the same pixels show the same picture. -/
theorem Sized.colors_congr (h : shown.Sized width height) (h' : now.Sized width height)
    (hat : ∀ x < width, ∀ y < height, now.at? x y = shown.at? x y) :
    now.colors = shown.colors := by
  rw [h.colors_at, h'.colors_at]
  refine List.map_congr_left fun y hy => List.map_congr_left fun x hx => ?_
  rw [hat x (List.mem_range.mp hx) y (List.mem_range.mp hy)]

/-- The grid keeps its size, and each of its colours is in the palette. A place is marked if and
only if it is in the grid and was painted since the marks were last taken off; so the places whose
colour is not what it was then are marked, and where the view asks for no repaint the picture is
what it was then. -/
theorem repaint_sound (width height : Nat) (v : View) (strokes : List Stroke) :
    let shown := (Stroke.run (Stroke.shown strokes) (v, blank width height)).2
    let now := Stroke.run strokes (v, blank width height)
    (now.2.colors.length = height ∧ ∀ row ∈ now.2.colors, row.length = width) ∧
    (∀ x < width, ∀ y < height, ∃ color : Color, now.2.pixel x y = .ok color ∧
      now.2.paint x y = .ok (palette.get color)) ∧
    (∀ x y, (x, y) ∈ now.2.touched ↔ x < width ∧ y < height ∧
      ∃ a ∈ Stroke.pending strokes, a.paints x y = true) ∧
    (∀ x < width, ∀ y < height, now.2.pixel x y ≠ shown.pixel x y → (x, y) ∈ now.2.touched) ∧
    ((now.1.refresh now.2).1 = false → now.2.colors = shown.colors) := by
  intro shown now
  have hblank := sized_blank width height
  have hshown : shown.Sized width height := hblank.run _ v
  have hnow : now.2.Sized width height := hblank.run _ v
  have hmarked : Marked shown now.2 (Stroke.pending strokes) :=
    marked_pending width height strokes v
  refine ⟨hnow.colors, ?_, fun x y => hmarked.mem_touched hnow, ?_, ?_⟩
  · intro x hx y hy
    obtain ⟨p, hp⟩ := hnow.at?_some hx hy
    refine ⟨p.color, pixel_at hp, ?_⟩
    rw [paint, pixel_at hp]
    rfl
  · intro x hx y hy hdiffers
    by_contra hout
    have hsame := hmarked.at?_eq hnow hx hy hout
    obtain ⟨p, hp⟩ := hnow.at?_some hx hy
    exact hdiffers ((pixel_at hp).trans (pixel_at (hsame ▸ hp)).symm)
  · intro hidle
    have hnone : now.2.touched = [] := View.touched_of_idle hidle
    exact hshown.colors_congr hnow fun x hx y hy =>
      hmarked.at?_eq hnow hx hy (by simp [hnone])

/-- A dot is painted and shown, then a key is pressed: there is nothing to repaint. A dot painted in
its own colour is marked all the same. -/
theorem repaint_sound_idle :
    let painted : List Stroke := [.update 1 0 3, .refresh]
    let now := Stroke.run (painted ++ [.press 65]) ({}, blank 2 1)
    let again := Stroke.run (painted ++ [.update 1 0 3]) ({}, blank 2 1)
    (now.1.refresh now.2).1 = false ∧
      now.2.colors = (Stroke.run painted ({}, blank 2 1)).2.colors ∧
      (1, 0) ∈ again.2.touched := by
  intro painted now again
  obtain ⟨-, -, -, -, hpicture⟩ := repaint_sound 2 1 {} (painted ++ [.press 65])
  obtain ⟨-, -, htouched, -, -⟩ := repaint_sound 2 1 {} (painted ++ [.update 1 0 3])
  have hidle : (now.1.refresh now.2).1 = false := by
    decide +kernel
  exact ⟨hidle, hpicture hidle, (htouched 1 0).mpr (by decide)⟩

end Screen

end Micro6502
