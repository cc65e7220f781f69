import Micro6502.Proofs.Repaint
import Micro6502.Proofs.Ticks

namespace Micro6502

/-- One block of bytes is known by what is found at each address. -/
theorem Bus.mappings_eq {b b' : Bus} (h : b.Flat) (h' : b'.Flat)
    (hcell : ∀ address, b'.cell address = b.cell address) : b'.mappings = b.mappings := by
  obtain ⟨mappings, log⟩ := b
  obtain ⟨mappings', log'⟩ := b'
  obtain ⟨⟨bytes⟩, hr, rfl⟩ := h
  obtain ⟨⟨bytes'⟩, hr', rfl⟩ := h'
  simp only [Ram.size] at hr hr'
  have hbytes : bytes' = bytes := by
    apply Array.ext
    · rw [hr, hr']
    · intro i hi' hi
      have hword : (word (i : Int)).toNat = i := by
        unfold word
        omega
      have hat := hcell (i : Int)
      rwa [cell_ram hr, cell_ram hr', hword, Array.getD_eq_getD_getElem?,
        Array.getD_eq_getD_getElem?, Array.getElem?_eq_getElem hi, Array.getElem?_eq_getElem hi']
        at hat
  rw [hbytes]

def Console.blanked : Console → Console
  | screen s => screen { Screen.blank s.width s.height with latch := s.latch }
  | recorder r => recorder { r with updates := #[] }

theorem Console.blanked_update (c : Console) (x y color : Int) :
    (c.update x y color).blanked = c.blanked := by
  cases c <;> simp [update, blanked]

theorem Console.blanked_blanked (c : Console) : c.blanked.blanked = c.blanked := by
  cases c <;> rfl

def Io.blanked (io : Io) : Io := { io with console := io.console.blanked }

/-- No pixel update asks to stop. -/
def Io.Unwatched (io : Io) : Prop := ∀ x y color, io.watches x y color = false

/-- Then a write changes the picture alone. -/
theorem Io.blanked_plotted {io : Io} (h : io.Unwatched) (address value : Int) :
    (io.plotted address value).blanked = io.blanked := by
  simp only [plotted]
  split
  · simp [blanked, Console.blanked_update, h _ _ _]
  · rfl

theorem Io.watches_plotted (io : Io) (address value : Int) :
    (io.plotted address value).watches = io.watches := by
  simp only [plotted]
  split <;> rfl

namespace Machine

variable {m : Machine}

theorem Sound.shown (h : m.Sound) (address value : Int) : (m.shown address value).Sound :=
  h.effect (after_write h.flat address value ▸ .write address value)

def zeroed (m : Machine) (start : Int) : Nat → Machine
  | 0 => m
  | count + 1 => (m.shown start 0).zeroed (start + 1) count

theorem zeroed_eq (m : Machine) (start : Int) (count : Nat) :
    m.zeroed start count =
      { m with
        memory := { m.memory with bus := (m.zeroed start count).memory.bus }
        io := (m.zeroed start count).io } := by
  induction count generalizing m start with
  | zero => rfl
  | succ count ih => exact ih (m.shown start 0) (start + 1)

theorem Sound.zeroed (h : m.Sound) (start : Int) (count : Nat) : (m.zeroed start count).Sound := by
  induction count generalizing m start with
  | zero => exact h
  | succ count ih => exact ih (h.shown start 0) (start + 1)

theorem clearMemory_sound (h : m.Sound) (start : Int) (count : Nat) :
    Window.clearMemory start count m = .ok () (m.zeroed start count) := by
  induction count generalizing m start with
  | zero => rfl
  | succ count ih =>
    rw [Window.clearMemory, bind_ok (write_sound h start 0)]
    exact ih (h.shown start 0) (start + 1)

/-- Zero is found where it was written, and what was there before is found elsewhere. -/
theorem cell_zeroed (h : m.memory.Flat) (start : Int) (count : Nat) (address : Int) :
    (m.zeroed start count).memory.cell address =
      if ∃ i < count, word (start + (i : Nat)) = word address then 0
      else m.memory.cell address := by
  induction count generalizing m start with
  | zero => simp [zeroed]
  | succ count ih =>
    have hrest : (∃ i < count + 1, word (start + (i : Nat)) = word address) ↔
        word address = word start ∨
          ∃ i < count, word (start + 1 + (i : Nat)) = word address := by
      simp only [Nat.exists_lt_succ_left, Int.natCast_succ, Int.natCast_zero, Int.add_zero,
        eq_comm (a := word start), Int.add_assoc, Int.add_comm 1]
    have hflat : (m.shown start 0).memory.Flat := h.stored start 0
    have hcell : (m.shown start 0).memory.cell address =
        if word address = word start then 0 else m.memory.cell address :=
      Memory.cell_stored h start 0 address
    rw [zeroed, ih hflat (start + 1), hcell]
    simp only [hrest]
    by_cases hlater : ∃ i < count, word (start + 1 + (i : Nat)) = word address
    · rw [if_pos hlater, if_pos (.inr hlater)]
    · rw [if_neg hlater]
      simp only [hlater, or_false]

/-- A range of addresses that does not pass the end of memory. -/
theorem cell_zeroed_range (h : m.memory.Flat) {first last a : Int} (hfirst : 0 ≤ first)
    (hlast : last ≤ 0xFFFF) (ha₀ : 0 ≤ a) (ha₁ : a ≤ 0xFFFF) :
    (m.zeroed first (last - first + 1).toNat).memory.cell a =
      if first ≤ a ∧ a ≤ last then 0 else m.memory.cell a := by
  have hrange : (∃ i < (last - first + 1).toNat, word (first + (i : Nat)) = word a) ↔
      first ≤ a ∧ a ≤ last := by
    rw [word_of_range ha₀ ha₁]
    constructor
    · rintro ⟨i, hi, he⟩
      rw [word_of_range (by omega) (by omega)] at he
      omega
    · rintro ⟨hle, hge⟩
      refine ⟨(a - first).toNat, by omega, ?_⟩
      rw [Int.toNat_of_nonneg (by omega), word_of_range (by omega) (by omega)]
      omega
  rw [cell_zeroed h]
  simp only [hrange]

theorem blanked_zeroed (h : ∀ io ∈ m.io, io.Unwatched) (start : Int) (count : Nat) :
    (m.zeroed start count).io.map Io.blanked = m.io.map Io.blanked := by
  induction count generalizing m start with
  | zero => rfl
  | succ count ih =>
    rw [zeroed, ih]
    · cases hio : m.io with
      | none => simp [shown, hio]
      | some io => simp [shown, hio, Io.blanked_plotted (h io hio)]
    · intro io hio
      obtain ⟨old, hold, rfl⟩ := Option.map_eq_some_iff.mp hio
      rw [Io.Unwatched, Io.watches_plotted]
      exact h old hold

end Machine

/-- Peripherals at the given places, with any pixels on a screen that has the size for them. -/
structure IoConfig.Places (c : IoConfig) (io : Io) : Prop where
  config : io.config = c
  unwatched : io.Unwatched
  screen : ∃ s, io.console = .screen s ∧ s.Shaped ∧ s.width = c.screenWidth ∧
    s.height = c.screenHeight

namespace IoConfig.Places

variable {c : IoConfig} {io : Io}

theorem plotted (h : c.Places io) (address value : Int) : c.Places (io.plotted address value) := by
  obtain ⟨s, hs, hshaped, hw, hh⟩ := h.screen
  simp only [Io.plotted]
  split
  · refine ⟨h.config, h.unwatched, s.update (address.fmod io.config.screenWidth)
      ((address - io.config.screenStart).fdiv io.config.screenWidth) (value % 16), ?_,
      hshaped.update _ _ _, ?_, ?_⟩
    · rw [hs]
      rfl
    · rw [Screen.width_update, hw]
    · rw [Screen.height_update, hh]
  · exact h

theorem press (h : c.Places io) (key : Int) :
    c.Places { io with console := io.console.press key } := by
  obtain ⟨s, hs, hshaped, hw, hh⟩ := h.screen
  refine ⟨h.config, h.unwatched, s.press key, ?_, ⟨hshaped.rows, hshaped.columns⟩, hw, hh⟩
  rw [hs]
  rfl

theorem blanked (h : c.Places io) : c.Places io.blanked := by
  obtain ⟨s, hs, -, hw, hh⟩ := h.screen
  refine ⟨h.config, h.unwatched, { Screen.blank s.width s.height with latch := s.latch }, ?_, ?_,
    hw, hh⟩
  · simp [Io.blanked, hs, Console.blanked]
  · have hblank := Screen.shaped_blank s.width s.height
    exact ⟨hblank.rows, hblank.columns⟩

end IoConfig.Places

namespace SystemConfig

/-- A machine of the configuration in any state: flat memory with any bytes, any registers and
status, and the configured peripherals. -/
structure Equips (c : SystemConfig) (m : Machine) : Prop where
  flat : m.memory.Flat
  peripherals : ∃ io, m.io = some io ∧ c.io.Places io

theorem build_equips (c : SystemConfig) (random : Random) (table : OpcodeTable) :
    c.Equips (c.build (.screen c.screen) random table) :=
  ⟨Bus.flat_blank, _, rfl, rfl, fun _ _ _ => rfl, c.screen, rfl, Screen.shaped_blank _ _, rfl, rfl⟩

namespace Equips

variable {c : SystemConfig} {m m' : Machine}

theorem sound (h : c.Equips m) (hw : c.io.screenWidth ≠ 0) : m.Sound := by
  refine ⟨h.flat, ?_⟩
  obtain ⟨io, hio, hplaces⟩ := h.peripherals
  have hwidth : io.config.screenWidth ≠ 0 := by rwa [hplaces.config]
  rw [hio]
  rintro _ ⟨⟩
  exact hwidth

theorem unwatched (h : c.Equips m) : ∀ io ∈ m.io, io.Unwatched := by
  obtain ⟨io, hio, hplaces⟩ := h.peripherals
  rw [hio]
  rintro _ ⟨⟩
  exact hplaces.unwatched

theorem effect (h : c.Equips m) (he : Machine.Effect m m') : c.Equips m' := by
  refine ⟨(he.steady h.flat).flat, ?_⟩
  obtain ⟨io, hio, hplaces⟩ := h.peripherals
  cases he.change h.flat with
  | answered old random hold =>
    cases hold.symm.trans hio
    exact ⟨{ io with random }, rfl, hplaces.config, hplaces.unwatched, hplaces.screen⟩
  | shown address value =>
    exact ⟨io.plotted (word address) value, by simp [Machine.shown, hio], hplaces.plotted _ _⟩
  | _ => exact ⟨io, hio, hplaces⟩

theorem loaded (h : c.Equips m) (start : Int) (values : List Int) :
    c.Equips { m with memory := m.memory.loaded start values } :=
  ⟨h.flat.loaded start values, h.peripherals⟩

theorem zeroed (h : c.Equips m) (start : Int) (count : Nat) : c.Equips (m.zeroed start count) := by
  induction count generalizing m start with
  | zero => exact h
  | succ count ih =>
    have heffect := Machine.Effect.write (m := m) start 0
    rw [Machine.after_write h.flat] at heffect
    exact ih (h.effect heffect) (start + 1)

/-- Whatever a host does, the machine stays one of the configuration. -/
theorem perform (h : c.Equips m) (k : Command) : c.Equips (k.perform m) := by
  refine Command.keeps (fun _ _ hm he => hm.effect he) h k ?_ ?_ ?_ ?_
  · exact fun i _ => ⟨h.flat.move _ _, h.peripherals⟩
  · exact fun _ => ⟨h.flat.move _ _, h.peripherals⟩
  · intro values start _
    rw [after_ok (Machine.onMemory_ok (Memory.load_flat h.flat values start))]
    exact h.loaded _ values
  · intro key _
    rw [Command.perform_press]
    obtain ⟨io, hio, hplaces⟩ := h.peripherals
    exact ⟨h.flat, _, by rw [hio]; rfl, hplaces.press key⟩

end Equips

end SystemConfig

namespace Window

variable {T : Toolkit} {w : Window T}

structure Fits (w : Window T) : Prop where
  start : 0 ≤ w.config.io.screenStart
  last : w.config.io.screenEnd ≤ 0xFFFF
  origin : 0 ≤ w.config.origin
  program : w.config.origin + w.program.length ≤ 0x10000

def wiped (w : Window T) : Machine :=
  let io := w.config.io
  w.machine.zeroed io.screenStart (io.screenEnd - io.screenStart + 1).toNat

/-- The memory that a reset leaves, before the processor starts anew. -/
def refilled (w : Window T) : Memory :=
  w.wiped.memory.loaded w.config.origin (byteValues w.program)

/-- The machine that a reset leaves, but for the screen. -/
def restarted (w : Window T) : Machine :=
  w.config.initial.apply { w.wiped with memory := w.refilled }

/-- The machine that a reset leaves, with all pixels of the screen still marked. -/
def restored (w : Window T) : Machine :=
  match w.restarted.screen? with
  | some s => w.restarted.withScreen (s.clear 0)
  | none => w.restarted

def paused (w : Window T) : Window T := (w.stopTimer.showActions false).showStatus

def anew (w : Window T) : Window T :=
  ({ w.paused with machine := w.restored }.refreshed.showActions false).showStatus

theorem reset_sound (h : w.machine.Sound) :
    reset w = .ok w.config.initial.warnings w.anew := by
  let w₁ := w.paused
  let w₂ : Window T := { w₁ with machine := w.restored }
  have hwiped : w.wiped.Sound := h.zeroed _ _
  have hclear := onMachine_ok (w := w₁) (Machine.clearMemory_sound h w.config.io.screenStart
    (w.config.io.screenEnd - w.config.io.screenStart + 1).toNat)
  have hload : onMachine
      (Machine.onMemory (Memory.load (byteValues w.program) (some w.config.origin)))
      { w₁ with machine := w.wiped } =
      .ok (byteValues w.program).length
        { w₁ with machine := { w.wiped with memory := w.refilled } } :=
    onMachine_ok (Machine.onMemory_ok (Memory.load_flat hwiped.flat _ _))
  have hscreen : (match w.restarted.screen? with
      | some s => { w₁ with machine := w.restarted.withScreen (s.clear 0) }
      | none => { w₁ with machine := w.restarted }) = w₂ := by
    simp only [w₂, restored]
    cases w.restarted.screen? <;> rfl
  obtain ⟨painted, hrefresh⟩ := refresh_ok w₂
  rw [reset, bind_ok (show pause w = .ok () w₁ from rfl), bind_ok (get_ok w₁)]
  change (onMachine (clearMemory w.config.io.screenStart
    (w.config.io.screenEnd - w.config.io.screenStart + 1).toNat) >>= _) w₁ = _
  rw [bind_ok hclear]
  change (onMachine
    (Machine.onMemory (Memory.load (byteValues w.program) (some w.config.origin))) >>= _)
    { w₁ with machine := w.wiped } = _
  rw [bind_ok hload]
  refine (bind_ok (a := ()) (t := w₂) ?_).trans ?_
  · exact congrArg (EStateM.Result.ok ()) hscreen
  · rw [bind_ok hrefresh]
    rfl

/-- The screen of a reset window is black and unmarked, and nothing else of the peripherals is
new. -/
theorem machine_anew (h : w.config.Equips w.machine) :
    w.anew.machine = { w.restarted with io := w.machine.io.map Io.blanked } := by
  have hwiped : w.config.Equips w.wiped := h.zeroed _ _
  obtain ⟨io₁, hio, hplaces⟩ := hwiped.peripherals
  obtain ⟨s, hconsole, hs, -⟩ := hplaces.screen
  have hio₁ : w.restarted.io = some io₁ := hio
  have hblanked : w.wiped.io.map Io.blanked = w.machine.io.map Io.blanked :=
    Machine.blanked_zeroed h.unwatched _ _
  have hscreen : w.restarted.screen? = some s := by
    simp [Machine.screen?, hio₁, hconsole, Console.screen?]
  have hrestored : w.restored = w.restarted.withScreen (s.clear 0) := by
    rw [restored, hscreen]
  have hcleared : w.restored.screen? = some (s.clear 0) := by
    simp [hrestored, Machine.withScreen, Machine.screen?, hio₁, Console.screen?]
  have hrefreshed : { w.paused with machine := w.restored }.refreshed.machine =
      w.restored.withScreen (s.clear 0).untouched := by
    rw [refreshed, hcleared, ← w.view.refresh_untouched (hs.clear 0)]
    rfl
  change { w.paused with machine := w.restored }.refreshed.machine = _
  rw [hrefreshed, hrestored, hs.untouched_clear, ← hblanked, hio]
  simp [Machine.withScreen, hio₁, Io.blanked, hconsole, Console.blanked]

/-- Where the bytes of a reset machine come from: the program, else zeros in the screen's range, else
what was there before. -/
theorem cell_refilled (h : w.config.Equips w.machine) (hfits : w.Fits) {a : Int} (ha₀ : 0 ≤ a)
    (ha₁ : a ≤ 0xFFFF) :
    w.refilled.cell a =
      if w.config.origin ≤ a ∧ a < w.config.origin + w.program.length then
        w.program.getD (a - w.config.origin).toNat 0
      else if w.config.io.screenStart ≤ a ∧ a ≤ w.config.io.screenEnd then 0
      else w.machine.memory.cell a := by
  obtain ⟨hstart, hlast, horigin, hprogram⟩ := hfits
  have hflat : w.wiped.memory.Flat := (h.zeroed _ _).flat
  have hlength : (byteValues w.program).length = w.program.length := by simp [byteValues]
  split
  · rename_i hin
    have hi : (a - w.config.origin).toNat < (byteValues w.program).length := by omega
    have hat := Memory.cell_loaded_at hflat w.config.origin (by omega) ⟨_, hi⟩
    rw [Int.toNat_of_nonneg (by omega), show w.config.origin + (a - w.config.origin) = a by omega]
      at hat
    have hbyte : (a - w.config.origin).toNat < w.program.length := hlength ▸ hi
    simpa [byteValues, refilled, List.getD, hbyte] using hat
  · rename_i hout
    have hother : ∀ i < (byteValues w.program).length,
        word (w.config.origin + (i : Nat)) ≠ word a := by
      intro i hi
      rw [word_of_range ha₀ ha₁, word_of_range (by omega) (by omega)]
      omega
    rw [refilled, Memory.cell_loaded hflat _ _ _ hother]
    exact Machine.cell_zeroed_range h.flat hstart hlast ha₀ ha₁

theorem refreshed_eq (w : Window T) :
    w.refreshed = { w with machine := w.refreshed.machine, view := w.refreshed.view } := by
  unfold refreshed
  cases w.machine.screen? <;> rfl

/-- What a reset sets outside the machine and the view. -/
theorem anew_eq (w : Window T) :
    w.anew = ({ w.paused with
      machine := w.anew.machine
      view := w.anew.view }.showActions false).showStatus :=
  congrArg (fun w : Window T => (w.showActions false).showStatus)
    (refreshed_eq { w.paused with machine := w.restored })

@[simp] theorem config_anew (w : Window T) : w.anew.config = w.config := by
  rw [anew_eq]
  rfl

@[simp] theorem program_anew (w : Window T) : w.anew.program = w.program := by
  rw [anew_eq]
  rfl

theorem running_anew (hT : T.Laws) (w : Window T) : w.anew.running = false := by
  rw [anew_eq]
  exact hT.stop_inactive w.timer

theorem isEnabled_anew (hT : T.Laws) (w : Window T) :
    w.anew.isEnabled .run = (!w.anew.machine.isHalted) ∧ w.anew.isEnabled .pause = false ∧
      w.anew.isEnabled .step = (!w.anew.machine.isHalted) ∧
      w.anew.isEnabled .reset = w.isEnabled .reset := by
  rw [anew_eq]
  exact ⟨hT.set_enabled _ _, hT.set_enabled _ _, hT.set_enabled _ _, rfl⟩

theorem label_anew (w : Window T) : w.anew.label = w.anew.status := by
  rw [anew_eq]
  rfl

theorem message_anew (w : Window T) : w.anew.message = w.message := by
  rw [anew_eq]
  rfl

theorem focused_anew (w : Window T) : w.anew.focused = w.focused := by
  rw [anew_eq]
  rfl

theorem Fits.anew (h : w.Fits) : w.anew.Fits := by
  obtain ⟨hstart, hlast, horigin, hprogram⟩ := h
  constructor <;> simpa only [config_anew, program_anew]

theorem scale_anew (w : Window T) : w.anew.view.scale = w.view.scale := by
  unfold anew refreshed
  dsimp only
  cases w.restored.screen? with
  | none => rfl
  | some s =>
    simp only [View.refresh]
    split <;> rfl

theorem origin_refilled (w : Window T) : w.refilled.origin = w.machine.memory.origin := by
  rw [refilled, Memory.loaded_eq, wiped, Machine.zeroed_eq]

/-- Of the machine that a reset leaves, the bytes apart, only the table and the origin are old. -/
theorem restarted_eq (w : Window T) :
    w.restarted = { w.config.initial.apply w.machine with
      memory := { w.machine.memory with
        bus := w.refilled.bus
        pc := word w.config.initial.pc
        sp := w.config.initial.sp % 0x100 }
      io := w.restarted.io } := by
  have htable : w.wiped.table = w.machine.table := by
    rw [wiped, Machine.zeroed_eq]
  simp [restarted, InitialState.apply, origin_refilled, htable]

theorem flat_refilled (h : w.config.Equips w.machine) : w.refilled.Flat :=
  (h.zeroed _ _).flat.loaded _ _

theorem equips_anew (h : w.config.Equips w.machine) : w.anew.config.Equips w.anew.machine := by
  rw [machine_anew h, config_anew]
  refine ⟨flat_refilled h, ?_⟩
  obtain ⟨io, hio, hplaces⟩ := h.peripherals
  refine ⟨io.blanked, by rw [hio]; rfl, hplaces.blanked⟩

/-- A window differs from another one at most in what tells of the past: the log of accesses and the
count of repaints. Of the timer and the buttons only what they answer counts. -/
structure Resembles (w w' : Window T) : Prop where
  machine : w'.machine.cleared = w.machine.cleared
  config : w'.config = w.config
  program : w'.program = w.program
  scale : w'.view.scale = w.view.scale
  running : w'.running = w.running
  enabled : ∀ a, w'.isEnabled a = w.isEnabled a
  label : w'.label = w.label
  message : w'.message = w.message
  focused : w'.focused = w.focused

/-- A second reset finds every byte as the first one left it. -/
theorem cell_refilled_anew (h : w.config.Equips w.machine) (hfits : w.Fits) (a : Int) :
    w.anew.refilled.cell a = w.refilled.cell a := by
  have hcell : w.anew.machine.memory.cell (word a) = w.refilled.cell (word a) := by
    rw [machine_anew h]
    rfl
  rw [← Memory.cell_word, ← Memory.cell_word w.refilled,
    cell_refilled (equips_anew h) hfits.anew (word_nonneg a) (word_le a), hcell,
    cell_refilled h hfits (word_nonneg a) (word_le a), config_anew, program_anew]
  split_ifs <;> rfl

theorem cleared_anew_anew (h : w.config.Equips w.machine) (hfits : w.Fits) :
    w.anew.anew.machine.cleared = w.anew.machine.cleared := by
  have hmappings : w.anew.refilled.bus.mappings = w.refilled.bus.mappings :=
    Bus.mappings_eq (flat_refilled h) (flat_refilled (equips_anew h)) fun a =>
      cell_refilled_anew h hfits a
  have hio : (w.machine.io.map Io.blanked).map Io.blanked = w.machine.io.map Io.blanked := by
    cases w.machine.io with
    | none => rfl
    | some io => simp [Io.blanked, Console.blanked_blanked]
  rw [machine_anew (equips_anew h), restarted_eq w.anew, machine_anew h, restarted_eq w]
  simp only [Machine.cleared, InitialState.apply, config_anew, hmappings, hio]

/-- A reset window is reset to itself. -/
theorem anew_resembles (hT : T.Laws) (h : w.config.Equips w.machine) (hfits : w.Fits) :
    w.anew.Resembles w.anew.anew := by
  have hmachine := cleared_anew_anew h hfits
  have hhalted : w.anew.anew.machine.isHalted = w.anew.machine.isHalted := by
    change w.anew.anew.machine.cleared.isHalted = w.anew.machine.cleared.isHalted
    rw [hmachine]
  have hrunning : w.anew.anew.running = w.anew.running :=
    (running_anew hT _).trans (running_anew hT w).symm
  have hline : w.anew.anew.status = w.anew.status := by
    rw [status, status, hrunning]
    change w.anew.anew.machine.cleared.statusLine _ = w.anew.machine.cleared.statusLine _
    rw [hmachine]
  obtain ⟨hrun, hpause, hstep, -⟩ := isEnabled_anew hT w
  obtain ⟨hrun', hpause', hstep', hreset'⟩ := isEnabled_anew hT w.anew
  refine ⟨hmachine, config_anew _, program_anew _, scale_anew _, hrunning, fun a => ?_, ?_,
    message_anew _, focused_anew _⟩
  · cases a with
    | run => rw [hrun, hrun', hhalted]
    | pause => rw [hpause, hpause']
    | step => rw [hstep, hstep', hhalted]
    | reset => exact hreset'
  · rw [label_anew, label_anew, hline]

/-- All pixels of a reset screen are black and none is marked. -/
theorem screen_anew (h : w.config.Equips w.machine) :
    ∃ s, w.anew.machine.screen? = some s ∧
      s.colors = List.replicate w.config.io.screenHeight.toNat
        (List.replicate w.config.io.screenWidth.toNat 0) ∧
      s.touched = [] := by
  obtain ⟨io, hio, hplaces⟩ := h.peripherals
  obtain ⟨s, hconsole, hs, hwidth, hheight⟩ := hplaces.screen
  refine ⟨{ Screen.blank s.width s.height with latch := s.latch }, ?_, ?_, ?_⟩
  · simp [machine_anew h, Machine.screen?, hio, Io.blanked, hconsole, Console.blanked,
      Console.screen?]
  · rw [← hwidth, ← hheight]
    simp [Screen.colors, Screen.blank]
  · rw [← hs.untouched_clear]
    exact Screen.touched_untouched _

/-- Registers, flags, status and step count of a reset machine are those of a new one. -/
theorem processor_anew (h : w.config.Equips w.machine) (console : Console) (random : Random)
    (table : OpcodeTable) :
    let built := w.config.build console random table
    w.anew.machine.state = built.state ∧ w.anew.machine.status = built.status ∧
      w.anew.machine.steps = built.steps := by
  rw [machine_anew h, restarted_eq]
  exact ⟨rfl, rfl, rfl⟩

/-- The window `w'` is `w` with the machine that its configuration describes. -/
structure Restored (w w' : Window T) : Prop where
  memory : ∀ a, 0 ≤ a → a ≤ 0xFFFF → w'.machine.memory.cell a =
    if w.config.origin ≤ a ∧ a < w.config.origin + w.program.length then
      w.program.getD (a - w.config.origin).toNat 0
    else if w.config.io.screenStart ≤ a ∧ a ≤ w.config.io.screenEnd then 0
    else w.machine.memory.cell a
  screen : let io := w.config.io
    ∃ s, w'.machine.screen? = some s ∧
      s.colors = List.replicate ((io.screenEnd - io.screenStart + 1) / io.screenWidth).toNat
        (List.replicate io.screenWidth.toNat 0) ∧
      s.touched = []
  processor : ∀ console random table,
    let built := w.config.build console random table
    w'.machine.state = built.state ∧ w'.machine.status = built.status ∧
      w'.machine.steps = built.steps
  timer : w'.running = false
  run : w'.isEnabled .run = true
  step : w'.isEnabled .step = true

theorem anew_restored (hT : T.Laws) (h : w.config.Equips w.machine) (hfits : w.Fits)
    (hwidth : 0 < w.config.io.screenWidth) : w.Restored w.anew := by
  have hready : w.anew.machine.isHalted = false := by
    rw [machine_anew h, restarted_eq]
    rfl
  refine ⟨fun a ha₀ ha₁ => ?_, ?_, processor_anew h, ?_, ?_, ?_⟩
  · rw [← cell_refilled h hfits ha₀ ha₁, machine_anew h]
    rfl
  · intro io
    rw [← IoConfig.height_eq hwidth]
    exact screen_anew h
  · exact running_anew hT w
  · rw [(isEnabled_anew hT w).1, hready]
    rfl
  · rw [(isEnabled_anew hT w).2.2.1, hready]
    rfl

/-- A reset restores the configured machine, whatever the state of the window, and a second one
changes nothing but the log of accesses and the count of repaints. -/
theorem reset_restores (hT : T.Laws) {entries : List (Data × Data)} {base : Option String}
    (hc : SystemConfig.parse entries base = .ok w.config) (h : w.config.Equips w.machine)
    (hfits : w.Fits) :
    ∃ w', reset w = .ok w.config.initial.warnings w' ∧ w.Restored w' ∧
      ∃ w'', reset w' = .ok w.config.initial.warnings w'' ∧ w'.Resembles w'' := by
  have hwidth : 0 < w.config.io.screenWidth := (SystemConfig.parse_screen hc).2
  have hagain : reset w.anew = .ok w.anew.config.initial.warnings w.anew.anew :=
    reset_sound ((equips_anew h).sound (by simpa using hwidth.ne'))
  rw [config_anew] at hagain
  exact ⟨w.anew, reset_sound (h.sound hwidth.ne'), anew_restored hT h hfits hwidth,
    w.anew.anew, hagain, anew_resembles hT h hfits⟩

/-- A processor that stumbled over its program, with a pixel painted on the screen. -/
theorem reset_restores_stumbled :
    let c : SystemConfig := {}
    let m := (c.build (.screen c.screen) ⟨fun _ => 0, 0⟩ .standard).performAll
      [.write 0x0200 5, .load [0x02] (some 0x0600), .step, .press 0x77]
    let w := create .plain m [0x02] c
    SystemConfig.parse [] none = .ok w.config ∧ w.config.Equips w.machine ∧ w.Fits ∧
      ∃ w', reset w = .ok [] w' ∧ w.Restored w' ∧
        ∃ w'', reset w' = .ok [] w'' ∧ w'.Resembles w'' := by
  intro c m w
  have hc : SystemConfig.parse [] none = .ok w.config := rfl
  have hm : w.config.Equips w.machine :=
    Command.performAll_keeps (fun _ hm k _ => hm.perform k) (c.build_equips _ _)
  have hfits : w.Fits := ⟨by decide, by decide, by decide, by decide⟩
  exact ⟨hc, hm, hfits, reset_restores Toolkit.plain_laws hc hm hfits⟩

end Window

end Micro6502
