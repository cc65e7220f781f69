import Micro6502.Proofs.Boot
import Micro6502.Proofs.VideoMemory

namespace Micro6502

namespace Machine

/-- An address counts modulo the address space. -/
theorem write_word (address value : Int) (m : Machine) :
    write (word address) value m = write address value m := by
  have hmemory : Memory.write (word address) value = Memory.write address value := by
    funext memory
    simp only [Memory.write, Memory.onBus, Bus.write, word_word]
  rw [write, write, hmemory, word_word]

end Machine

namespace Screen

variable {s : Screen} {x y : Int}

theorem pixel_update (h : s.Shaped) (hx : 0 ≤ x ∧ x < s.width) (hy : 0 ≤ y ∧ y < s.height)
    (color : Int) : (s.update x y color).pixel x y = .ok (colorOf color) := by
  have hplace : (s.at? x.toNat y.toNat).isSome = true := h.at?_isSome.mpr (by omega)
  obtain ⟨p, hp⟩ := Option.isSome_iff_exists.mp hplace
  refine pixel_eq hx.1 hy.1 (p := ⟨colorOf color, true⟩) ?_
  rw [at?_update hx hy, if_pos ⟨rfl, rfl⟩, hp]
  rfl

/-- Painting leaves the other places alone, also where it is ignored. -/
theorem at?_update_ne {i j : Nat} (h : ¬ ((i : Int) = x ∧ (j : Int) = y)) (color : Int) :
    (s.update x y color).at? i j = s.at? i j := by
  by_cases hin : 0 ≤ x ∧ x < s.width ∧ 0 ≤ y ∧ y < s.height
  · rw [at?_update ⟨hin.1, hin.2.1⟩ hin.2.2, if_neg]
    omega
  · rw [update_outside hin]

end Screen

namespace SystemConfig

open Machine

variable {c : SystemConfig} {m : Machine}

/-- What a write makes of the screen. -/
theorem Equips.screen_shown (h : c.Equips m) (hw : c.io.screenWidth ≠ 0) (address value : Int) :
    ∃ s, m.screen? = some s ∧ s.Shaped ∧ s.width = c.io.screenWidth ∧
      s.height = c.io.screenHeight ∧
      (m.shown address value).screen? = some
        (if c.io.screenStart ≤ word address ∧ word address ≤ c.io.screenEnd then
          s.update (c.io.column (word address)) (c.io.row (word address)) (value % 16)
        else s) := by
  obtain ⟨io, hio, hplaces⟩ := h.peripherals
  obtain ⟨s, hs, hshaped, hwidth, hheight⟩ := hplaces.screen
  have hscreen : m.screen? = some s := by simp [screen?, hio, hs, Console.screen?]
  refine ⟨s, hscreen, hshaped, hwidth, hheight, ?_⟩
  have hshown : (m.shown address value).screen? =
      (io.plotted (word address) value).console.screen? := by
    simp [screen?, shown, hio]
  rw [hshown]
  split
  · rename_i hin
    rw [Io.plotted_screen (hplaces.config ▸ hw) (hplaces.config ▸ hin) hs, hplaces.config]
    rfl
  · rename_i hout
    rw [Io.plotted_outside (hplaces.config ▸ hout), hs]
    rfl

/-- A byte of the screen's range that lies in the address space is shown in its row, counted from
the start of the range, and in the column of its address; nothing else changes on the screen. Where
the start is a multiple of the width, rows begin at column zero. Bytes of an incomplete last row are
not shown, and an address beyond the address space is one in it, modulo its size. -/
theorem screen_layout {entries : List (Data × Data)} {base : Option String}
    (hc : parse entries base = .ok c) (random : Random) (table : OpcodeTable)
    (commands : List Command) {o : Int} (h₀ : 0 ≤ o)
    (h₁ : o ≤ c.io.screenEnd - c.io.screenStart) (hlow : 0 ≤ c.io.screenStart + o)
    (hhigh : c.io.screenStart + o ≤ 0xFFFF) (v : Int) :
    let m := (c.build (.screen c.screen) random table).performAll commands
    let width := c.io.screenWidth
    let a := c.io.screenStart + o
    ∃ s s', m.screen? = some s ∧ outcome (write a v) m = .ok () ∧
      (after (write a v) m).screen? = some s' ∧
      (o / width < c.io.screenHeight →
        ∃ color, s'.pixel (a % width) (o / width) = .ok color ∧ (color : Int) = v % 16) ∧
      (∀ x y : Nat, ¬ ((x : Int) = a % width ∧ (y : Int) = o / width) → s'.at? x y = s.at? x y) ∧
      (c.io.screenHeight ≤ o / width → s' = s) ∧
      (width ∣ c.io.screenStart → a % width = o % width) ∧
      ∀ address, write (word address) v m = write address v m := by
  intro m width a
  have hw : 0 < width := (parse_screen hc).2
  have hm : c.Equips m := performAll_equips c random table commands
  have hword : word a = a := word_of_range hlow hhigh
  have hcolumn : c.io.column a = a % width := IoConfig.column_eq hw a
  have hrow : c.io.row a = o / width := by
    rw [IoConfig.row_eq hw]
    congr 1
    omega
  obtain ⟨s, hs, hshaped, hwidth, hheight, hs'⟩ := hm.screen_shown hw.ne' a v
  have hin : c.io.screenStart ≤ word a ∧ word a ≤ c.io.screenEnd := by omega
  rw [if_pos hin, hword, hcolumn, hrow] at hs'
  have hwrite := write_sound (hm.sound hw.ne') a v
  have hx : 0 ≤ a % width ∧ a % width < s.width := by
    rw [hwidth]
    exact ⟨Int.emod_nonneg a hw.ne', Int.emod_lt_of_pos a hw⟩
  have hy : 0 ≤ o / width := Int.ediv_nonneg h₀ hw.le
  refine ⟨s, _, hs, outcome_ok hwrite, (after_ok hwrite).symm ▸ hs', fun hshown => ?_,
    fun x y hne => Screen.at?_update_ne hne _, fun hhidden => ?_, fun haligned => ?_,
    fun address => write_word address v m⟩
  · refine ⟨_, Screen.pixel_update hshaped hx ⟨hy, hheight ▸ hshown⟩ _, ?_⟩
    rw [Screen.val_colorOf]
    omega
  · refine Screen.update_outside (fun hplace => ?_) _
    rw [hheight] at hplace
    omega
  · rw [Int.add_emod, Int.emod_eq_zero_of_dvd haligned, Int.zero_add, Int.emod_emod]

/-- In the standard layout the byte below the second one of a row is the second one of the next. -/
theorem screen_layout_standard :
    let m := ({} : SystemConfig).build (.screen (screen {})) ⟨fun _ => 7, 0⟩ .standard
    parse [] none = .ok {} ∧ ∃ s' color, (after (write 0x0221 0x1F) m).screen? = some s' ∧
      s'.pixel 1 1 = .ok color ∧ (color : Int) = 15 := by
  have hc : parse [] none = .ok {} := rfl
  intro m
  obtain ⟨-, s', -, -, hs', hpixel, -⟩ := screen_layout hc ⟨fun _ => 7, 0⟩ .standard []
    (o := 33) (by decide) (by decide) (by decide) (by decide) 0x1F
  obtain ⟨color, hcolor, hvalue⟩ := hpixel (by decide)
  exact ⟨hc, s', color, hs', hcolor, hvalue⟩

def screenEntries (first last width : Int) : List (Data × Data) :=
  [(.text "io", .map [(.text "framebuffer_start", .int first),
    (.text "framebuffer_end", .int last), (.text "framebuffer_width", .int width)])]

/-- Layouts that are accepted, and a byte of each that is not shown in its row and column as counted
from the start of the range: the start is no multiple of the width, the last row is incomplete, and
the range lies beyond the address space. -/
theorem screen_layout_skewed :
    let start (c : SystemConfig) : Machine :=
      c.build (.screen c.screen) ⟨fun _ => 7, 0⟩ .standard
    (∃ c, parse (screenEntries 0x0201 0x0204 2) none = .ok c ∧
      ∃ s, (after (write 0x0201 5) (start c)).screen? = some s ∧ s.pixel 0 0 = .ok 0 ∧
        s.pixel 1 0 = .ok 5) ∧
    (∃ c, parse (screenEntries 0x0200 0x0202 2) none = .ok c ∧
      (after (write 0x0202 5) (start c)).screen? = (start c).screen?) ∧
    (∃ c, parse (screenEntries 0x10000 0x103FF 32) none = .ok c ∧
      (after (write 0x10000 5) (start c)).screen? = (start c).screen?) := by
  intro start
  have hstart (c : SystemConfig) : c.Equips (start c) := build_equips c _ _
  have hscreen (c : SystemConfig) : (start c).screen? = some c.screen := rfl
  have hwrite (c : SystemConfig) (hw : c.io.screenWidth ≠ 0) (address : Int) :
      (after (write address 5) (start c)).screen? = some
        (if c.io.screenStart ≤ word address ∧ word address ≤ c.io.screenEnd then
          c.screen.update (c.io.column (word address)) (c.io.row (word address)) 5
        else c.screen) := by
    obtain ⟨s, hs, -, -, -, hs'⟩ := (hstart c).screen_shown hw address 5
    cases (hscreen c).symm.trans hs
    rw [after_write (hstart c).flat, hs']
    rfl
  refine ⟨⟨_, rfl, _, hwrite _ (by decide) _, ?_, ?_⟩, ⟨_, rfl, ?_⟩, ⟨_, rfl, ?_⟩⟩
  · rfl
  · rfl
  · rw [hwrite _ (by decide), hscreen]
    rfl
  · rw [hwrite _ (by decide), hscreen]
    rfl

end SystemConfig

end Micro6502
