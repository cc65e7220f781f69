import Micro6502.Proofs.Command
import Micro6502.Proofs.Configuration
import Micro6502.Proofs.Grid
import Micro6502.Proofs.Sound

namespace Micro6502

def shade (b : Byte) : Color := ⟨b.toNat % 16, Nat.mod_lt _ (by decide)⟩

/-- A written value gives a pixel the colour of the byte that is stored. -/
theorem colorOf_written (value : Int) : Screen.colorOf (value % 16) = shade (byte value) := by
  have hcolor : ((Screen.colorOf (value % 16) : Color) : Int) = value % 16 % 16 :=
    Screen.val_colorOf _
  have hbyte : ((byte value).toNat : Int) = value % 256 := val_byte value
  have hshade : ((shade (byte value) : Color) : Int) = ((byte value).toNat : Int) % 16 := rfl
  refine Fin.ext ?_
  omega

/-- The screen's range lies in the address space, and away from the stack. -/
structure IoConfig.Clear (c : IoConfig) : Prop where
  columns : 0 < c.screenWidth
  start_nonneg : 0 ≤ c.screenStart
  end_le : c.screenEnd ≤ 0xFFFF
  stack : ∀ a, c.screenStart ≤ a → a ≤ c.screenEnd → ¬ (0x0100 ≤ a ∧ a ≤ 0x01FF)

structure Reflects (c : IoConfig) (memory : Memory) (s : Screen) : Prop where
  shaped : s.Shaped
  width : s.width = c.screenWidth
  height : s.height = c.screenHeight
  pixels : ∀ a, c.Owns a →
    (s.at? (c.column a).toNat (c.row a).toNat).map (·.color) = some (shade (memory.cell a))

variable {c : IoConfig} {memory memory' : Memory} {s : Screen}

theorem IoConfig.Clear.word_eq (hc : c.Clear) {a : Int} (h : c.Owns a) : word a = a := by
  have := hc.start_nonneg
  have := hc.end_le
  have := h.start_le
  have := h.le_end
  exact word_of_range (by omega) (by omega)

namespace Reflects

theorem congr (h : Reflects c memory s) (hcell : ∀ a, c.Owns a → memory'.cell a = memory.cell a) :
    Reflects c memory' s where
  shaped := h.shaped
  width := h.width
  height := h.height
  pixels a ha := by rw [h.pixels a ha, hcell a ha]

theorem update (h : Reflects c memory s) (hc : c.Clear) (hf : memory.Flat) {address : Int}
    (value : Int) (hstart : c.screenStart ≤ word address) :
    Reflects c (memory.stored address value)
      (s.update (c.column (word address)) (c.row (word address)) (value % 16)) := by
  have hx := c.column_range hc.columns (word address)
  have hy := c.row_nonneg hc.columns hstart
  by_cases hrow : c.row (word address) < c.screenHeight
  · refine ⟨h.shaped.update _ _ _, by simp [h.width], by simp [h.height], fun a ha => ?_⟩
    rw [Screen.at?_update (h.width ▸ hx) (h.height ▸ ⟨hy, hrow⟩), Memory.cell_stored hf,
      hc.word_eq ha]
    simp only [IoConfig.place_eq_iff hc.columns ha.start_le hstart]
    split
    · obtain ⟨p, hp, -⟩ := Option.map_eq_some_iff.mp (h.pixels a ha)
      simp [hp, colorOf_written]
    · exact h.pixels a ha
  · -- the address belongs to an incomplete last row, which the grid does not have
    rw [Screen.update_outside (by rw [h.height]; exact fun hxy => hrow hxy.2.2.2)]
    refine h.congr fun a ha => ?_
    have hne : word a ≠ word address := by
      rw [hc.word_eq ha]
      rintro rfl
      exact hrow ha.row_lt
    rw [Memory.cell_stored hf, if_neg hne]

theorem stored (h : Reflects c memory s) (hc : c.Clear) (hf : memory.Flat) {address : Int}
    (value : Int) (hout : ¬ (c.screenStart ≤ word address ∧ word address ≤ c.screenEnd)) :
    Reflects c (memory.stored address value) s := by
  refine h.congr fun a ha => ?_
  have hne : word a ≠ word address := by
    rw [hc.word_eq ha]
    rintro rfl
    exact hout ⟨ha.start_le, ha.le_end⟩
  rw [Memory.cell_stored hf, if_neg hne]

theorem pixel (h : Reflects c memory s) (hw : 0 < c.screenWidth) {a : Int} (ha : c.Owns a) :
    s.pixel (a % c.screenWidth) ((a - c.screenStart) / c.screenWidth) =
      .ok (shade (memory.cell a)) := by
  obtain ⟨p, hp, hcolor⟩ := Option.map_eq_some_iff.mp (h.pixels a ha)
  rw [← c.column_eq hw, ← c.row_eq hw, ← hcolor]
  exact Screen.pixel_eq (c.column_range hw a).1 (c.row_nonneg hw ha.start_le) hp

/-- The rows of the grid are the bytes of the range, each at its owner's place. -/
theorem colors (h : Reflects c memory s) (hw : 0 < c.screenWidth) :
    s.colors = (List.range c.screenHeight.toNat).map fun (y : Nat) =>
      (List.range c.screenWidth.toNat).map fun (x : Nat) => shade (memory.cell (c.owner x y)) := by
  rw [← h.width, ← h.height]
  refine Screen.colors_eq h.shaped fun x y hx hy => ?_
  rw [h.width] at hx
  rw [h.height] at hy
  have hp := h.pixels (c.owner x y) (c.owns_owner hw (by omega) (by omega) x)
  rwa [c.column_owner hw (by omega) (by omega), c.row_owner hw] at hp

theorem blank (hw : 0 < c.screenWidth) (hcell : ∀ a, memory.cell a = 0) :
    Reflects c memory (Screen.blank c.screenWidth c.screenHeight) where
  shaped := Screen.shaped_blank _ _
  width := rfl
  height := rfl
  pixels a ha := by
    have hx := c.column_range hw a
    have hy := c.row_nonneg hw ha.start_le
    have hrow := ha.row_lt
    rw [Screen.at?_blank (by omega) (by omega), hcell a]
    rfl

end Reflects

theorem Io.plotted_outside {io : Io} {address : Int}
    (h : ¬ (io.config.screenStart ≤ address ∧ address ≤ io.config.screenEnd)) (value : Int) :
    io.plotted address value = io := by
  simp only [Io.plotted]
  rw [if_neg fun hin => h ⟨hin.1, hin.2.1⟩]

theorem Io.plotted_screen {io : Io} {address : Int} (hw : io.config.screenWidth ≠ 0)
    (h : io.config.screenStart ≤ address ∧ address ≤ io.config.screenEnd)
    (hs : io.console = .screen s) (value : Int) :
    (io.plotted address value).console =
      .screen (s.update (io.config.column address) (io.config.row address) (value % 16)) := by
  simp only [Io.plotted]
  rw [if_pos ⟨h.1, h.2, hw⟩, hs]
  rfl

namespace Machine

/-- The machine's screen, at the given places, shows the bytes of its range. -/
structure Shows (c : IoConfig) (origin : Int) (m : Machine) : Prop where
  flat : m.memory.Flat
  origin : m.memory.origin = origin
  sp : 0 ≤ m.memory.sp ∧ m.memory.sp ≤ 0xFF
  screen : ∃ io s, m.io = some io ∧ io.config = c ∧ io.console = .screen s ∧ Reflects c m.memory s

namespace Shows

variable {origin : Int} {m m' : Machine}

/-- A memory with the same bytes in the range is shown alike. -/
theorem remember (h : m.Shows c origin) {memory : Memory} (hflat : memory.Flat)
    (horigin : memory.origin = m.memory.origin) (hsp : 0 ≤ memory.sp ∧ memory.sp ≤ 0xFF)
    (hcell : ∀ a, c.Owns a → memory.cell a = m.memory.cell a) :
    Shows c origin { m with memory } := by
  refine ⟨hflat, horigin.trans h.origin, hsp, ?_⟩
  obtain ⟨io, s, hio, hconfig, hconsole, hs⟩ := h.screen
  exact ⟨io, s, hio, hconfig, hconsole, hs.congr hcell⟩

/-- A write reaches the byte and, in the range, its pixel. -/
theorem write (h : m.Shows c origin) (hc : c.Clear) (address value : Int) :
    (m.shown address value).Shows c origin := by
  refine ⟨h.flat.stored address value, h.origin, h.sp, ?_⟩
  obtain ⟨io, s, hm, rfl, hconsole, hs⟩ := h.screen
  have hcolumns : io.config.screenWidth ≠ 0 := hc.columns.ne'
  have hio : (m.shown address value).io = some (io.plotted (word address) value) := by
    simp [shown, hm]
  by_cases hin : io.config.screenStart ≤ word address ∧ word address ≤ io.config.screenEnd
  · exact ⟨_, _, hio, by simp, Io.plotted_screen hcolumns hin hconsole value,
      hs.update hc h.flat value hin.1⟩
  · rw [Io.plotted_outside hin] at hio
    exact ⟨io, s, hio, rfl, hconsole, hs.stored hc h.flat value hin⟩

/-- The stack is not shown. -/
theorem push (h : m.Shows c origin) (hc : c.Clear) (value : Int) :
    Shows c origin { m with memory := m.memory.pushed value } := by
  have hsp := h.sp
  have hout : ¬ (c.screenStart ≤ word (stackBase + m.memory.sp) ∧
      word (stackBase + m.memory.sp) ≤ c.screenEnd) := by
    have haddress : word (stackBase + m.memory.sp) = 0x0100 + m.memory.sp :=
      word_of_range (by unfold stackBase; omega) (by unfold stackBase; omega)
    rw [haddress]
    exact fun hin => hc.stack _ hin.1 hin.2 (by omega)
  have hsp' : 0 ≤ (m.memory.sp - 1) % 0x100 ∧ (m.memory.sp - 1) % 0x100 ≤ 0xFF := by omega
  refine ⟨h.flat.pushed value, h.origin, hsp', ?_⟩
  obtain ⟨io, s, hio, hconfig, hconsole, hs⟩ := h.screen
  exact ⟨io, s, hio, hconfig, hconsole, (hs.stored hc h.flat value hout).congr fun _ _ => rfl⟩

theorem effect (hc : c.Clear) (h : m.Shows c origin) (he : Effect m m') : m'.Shows c origin := by
  cases he.change h.flat with
  | same => exact h
  | cleared => exact h.remember h.flat.cleared rfl h.sp fun a _ => m.memory.cell_cleared a
  | fetched => exact h.remember h.flat.fetched rfl h.sp fun a _ => m.memory.cell_noted _ a
  | noted address =>
    exact h.remember (h.flat.noted address) rfl h.sp fun a _ => m.memory.cell_noted address a
  | answered io random hio =>
    obtain ⟨io', s, hio', hconfig, hconsole, hs⟩ := h.screen
    cases hio.symm.trans hio'
    exact ⟨h.flat, h.origin, h.sp, _, s, rfl, hconfig, hconsole, hs⟩
  | shown address value => exact h.write hc address value
  | pushed value => exact h.push hc value
  | pulled =>
    have hsp : 0 ≤ (m.memory.sp + 1) % 0x100 ∧ (m.memory.sp + 1) % 0x100 ≤ 0xFF := by omega
    exact h.remember h.flat.pulled rfl hsp fun a _ => m.memory.cell_noted _ a
  | jumped address => exact h.remember (h.flat.move _ _) rfl h.sp fun _ _ => rfl
  | pointed b =>
    have hb := b.toNat_lt
    have hsp : 0 ≤ (b : Int) ∧ (b : Int) ≤ 0xFF := by omega
    exact h.remember (h.flat.move _ _) rfl hsp fun _ _ => rfl
  | _ => exact ⟨h.flat, h.origin, h.sp, h.screen⟩

/-- Counter and pointer are not shown, nor are the registers. -/
theorem restart (h : m.Shows c origin) (pc : Int) {sp : Int} (hsp : 0 ≤ sp ∧ sp ≤ 0xFF)
    (registers : Registers) (status : Status) (steps : Nat) :
    Shows c origin
      { m with memory := { m.memory with pc, sp }, registers, status, steps } := by
  have hm := h.remember (h.flat.move pc sp) rfl hsp fun _ _ => rfl
  exact ⟨hm.flat, hm.origin, hm.sp, hm.screen⟩

theorem load (hc : c.Clear) (h : m.Shows c origin) (values : List Int) (start : Option Int)
    (hout : ∀ i < values.length, ¬ (c.screenStart ≤ word (start.getD origin + (i : Nat)) ∧
      word (start.getD origin + (i : Nat)) ≤ c.screenEnd)) :
    (after (onMemory (Memory.load values start)) m).Shows c origin := by
  rw [after_ok (onMemory_ok (Memory.load_flat h.flat values start)), h.origin, Memory.loaded_eq]
  refine h.remember (h.flat.loaded _ values) rfl h.sp fun a ha => ?_
  refine Memory.cell_loaded h.flat _ a values fun i hi he => hout i hi ?_
  rw [he, hc.word_eq ha]
  exact ⟨ha.start_le, ha.le_end⟩

theorem press (h : m.Shows c origin) (key : Int) :
    (Command.perform m (.press key)).Shows c origin := by
  rw [Command.perform_press]
  refine ⟨h.flat, h.origin, h.sp, ?_⟩
  obtain ⟨io, s, hio, hconfig, hconsole, hs⟩ := h.screen
  refine ⟨{ io with console := .screen (s.press key) }, s.press key, ?_, hconfig, rfl, ?_⟩
  · simp [hio, hconsole, Console.press]
  · exact ⟨⟨hs.shaped.rows, hs.shaped.columns⟩, hs.width, hs.height, hs.pixels⟩

/-- Every command keeps what is shown, as long as programs are loaded outside the range. -/
theorem perform (hc : c.Clear) (h : m.Shows c origin) (k : Command)
    (hload : ∀ values start, k = .load values start → ∀ i < values.length,
      ¬ (c.screenStart ≤ word (start.getD origin + (i : Nat)) ∧
        word (start.getD origin + (i : Nat)) ≤ c.screenEnd)) :
    (k.perform m).Shows c origin := by
  refine Command.keeps (fun m m' hm he => effect hc hm he) h k ?_ ?_ ?_ ?_
  · exact fun i _ => h.restart _ (by omega) _ _ _
  · exact fun _ => h.restart _ (by decide) _ _ _
  · exact fun values start hk => h.load hc values start (hload values start hk)
  · exact fun key _ => h.press key

end Shows

end Machine

namespace SystemConfig

theorem build_shows (c : SystemConfig) (hw : 0 < c.io.screenWidth) (random : Random)
    (table : OpcodeTable) :
    (c.build (.screen c.screen) random table).Shows c.io c.origin := by
  refine ⟨Bus.flat_blank, rfl, ?_, _, c.screen, rfl, rfl, rfl, ?_⟩
  · change 0 ≤ c.initial.sp % 0x100 ∧ c.initial.sp % 0x100 ≤ 0xFF
    omega
  · exact Reflects.blank hw Bus.cell_blank

/-- The screen is the image of its range of memory, whatever a host does with the machine, as long
as it loads programs elsewhere. Every address of the range has the low four bits of its byte as the
colour at its place, but for those of an incomplete last row; no two addresses share a place, and
every place belongs to an address. -/
theorem screen_image {entries : List (Data × Data)} {base : Option String} {c : SystemConfig}
    (hc : parse entries base = .ok c) (hstart : 0 ≤ c.io.screenStart)
    (hend : c.io.screenEnd ≤ 0xFFFF)
    (hstack : ∀ a, c.io.screenStart ≤ a → a ≤ c.io.screenEnd → ¬ (0x0100 ≤ a ∧ a ≤ 0x01FF))
    (random : Random) (table : OpcodeTable) (commands : List Command)
    (hload : ∀ values start, .load values start ∈ commands → ∀ i < values.length,
      ¬ (c.io.screenStart ≤ word (start.getD c.origin + (i : Nat)) ∧
        word (start.getD c.origin + (i : Nat)) ≤ c.io.screenEnd)) :
    let m := (c.build (.screen c.screen) random table).performAll commands
    let start := c.io.screenStart
    let width := c.io.screenWidth
    let height := (c.io.screenEnd - start + 1) / width
    ∃ s, m.screen? = some s ∧
      (∀ a, start ≤ a → a ≤ c.io.screenEnd → (a - start) / width < height →
        ∃ color, s.pixel (a % width) ((a - start) / width) = .ok color ∧
          (color : Nat) = (m.memory.cell a).toNat % 16) ∧
      (∀ a b, a % width = b % width → (a - start) / width = (b - start) / width → a = b) ∧
      (∀ x y, 0 ≤ x → x < width → 0 ≤ y → y < height → let a := c.io.owner x y
        start ≤ a ∧ a ≤ c.io.screenEnd ∧ a % width = x ∧ (a - start) / width = y) ∧
      s.colors.map (·.map Fin.val) = (List.range height.toNat).map fun (y : Nat) =>
        (List.range width.toNat).map fun (x : Nat) =>
          (m.memory.cell (c.io.owner x y)).toNat % 16 := by
  intro m start width height
  have hw : 0 < width := (parse_screen hc).2
  have hheight : c.io.screenHeight = height := IoConfig.height_eq hw
  have hclear : c.io.Clear := ⟨hw, hstart, hend, hstack⟩
  have hm : m.Shows c.io c.origin := by
    refine Command.performAll_keeps (fun m hm k hk => ?_) (c.build_shows hw random table)
    exact hm.perform hclear k fun values start h => hload values start (h ▸ hk)
  obtain ⟨io, s, hio, -, hconsole, hs⟩ := hm.screen
  refine ⟨s, ?_, fun a hlow hhigh hrow => ?_, fun a b hcolumn hrow => ?_,
    fun x y hx₀ hx₁ hy₀ hy₁ => ?_, ?_⟩
  · simp [Machine.screen?, hio, hconsole, Console.screen?]
  · rw [← IoConfig.row_eq hw, ← hheight] at hrow
    exact ⟨_, hs.pixel hw ⟨hlow, hhigh, hrow⟩, rfl⟩
  · rw [← IoConfig.column_eq hw, ← IoConfig.column_eq hw] at hcolumn
    rw [← IoConfig.row_eq hw, ← IoConfig.row_eq hw] at hrow
    exact IoConfig.eq_of_pixel hw hcolumn hrow
  · have howns := IoConfig.owns_owner hw hy₀ (hheight ▸ hy₁) x
    exact ⟨howns.start_le, howns.le_end,
      (IoConfig.column_eq hw _).symm.trans (IoConfig.column_owner hw hx₀ hx₁ y),
      (IoConfig.row_eq hw _).symm.trans (IoConfig.row_owner hw x y)⟩
  · rw [hs.colors hw, hheight, List.map_map]
    refine List.map_congr_left fun y _ => ?_
    rw [Function.comp_apply, List.map_map]
    rfl

/-- The standard layout is one: a program is loaded behind the screen and paints, the host writes a
pixel through an address beyond the address space, and the pixel shows the byte. -/
theorem screen_image_standard :
    let commands : List Command :=
      [.load [0xA9, 0x05, 0x8D, 0x00, 0x02] (some 0x0600), .step, .step, .press 0x77,
        .write 0x10201 0x1F3, .run 2]
    let m := (({} : SystemConfig).build (.screen (screen {})) ⟨fun _ => 7, 0⟩ .standard).performAll
      commands
    parse [] none = .ok {} ∧
      (∀ values start, Command.load values start ∈ commands → ∀ i < values.length,
        ¬ (0x0200 ≤ word (start.getD 0x0600 + (i : Nat)) ∧
          word (start.getD 0x0600 + (i : Nat)) ≤ 0x05FF)) ∧
      ∃ s color, m.screen? = some s ∧ s.pixel 1 0 = .ok color ∧
        (color : Nat) = (m.memory.cell 0x0201).toNat % 16 := by
  intro commands m
  have hc : parse [] none = .ok {} := rfl
  have hload : ∀ values start, Command.load values start ∈ commands → ∀ i < values.length,
      ¬ (0x0200 ≤ word (start.getD 0x0600 + (i : Nat)) ∧
        word (start.getD 0x0600 + (i : Nat)) ≤ 0x05FF) := by
    intro values start h i hi
    obtain ⟨rfl, rfl⟩ : values = [0xA9, 0x05, 0x8D, 0x00, 0x02] ∧ start = some 0x0600 := by
      simpa [commands] using h
    have hi : i < 5 := hi
    simp only [Option.getD_some, word]
    omega
  have hstack : ∀ a : Int, 0x0200 ≤ a → a ≤ 0x05FF → ¬ (0x0100 ≤ a ∧ a ≤ 0x01FF) := by
    omega
  obtain ⟨s, hs, hpixels, -⟩ :=
    screen_image hc (by decide) (by decide) hstack ⟨fun _ => 7, 0⟩ .standard commands hload
  obtain ⟨color, hcolor, hvalue⟩ := hpixels 0x0201 (by decide) (by decide) (by decide)
  exact ⟨hc, hload, s, color, hs, hcolor, hvalue⟩

end SystemConfig

end Micro6502
