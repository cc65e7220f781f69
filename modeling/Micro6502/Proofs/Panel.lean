import Mathlib.Data.List.DropRight
import Micro6502.Proofs.Reset

namespace Micro6502

/-- What the toolbar and the timer call. -/
inductive Slot where
  | start | pause | step | reset | tick
  deriving DecidableEq, Repr

variable {T : Toolkit}

def Slot.act : Slot → WindowM T Unit
  | start => Window.start
  | pause => Window.pause
  | step => Window.step
  | reset => do let _ ← Window.reset
  | tick => Window.tick

def Window.afterSlots (w : Window T) (slots : List Slot) : Window T :=
  slots.foldl (fun w s => after s.act w) w

namespace Machine

variable {m m' : Machine}

/-- Marks do not make an access fail. -/
theorem Sound.of_marked (h : m.Sound) (hm : m'.marked = m.marked) : m'.Sound := by
  have hmemory : m'.memory = m.memory := (alike_of_marked hm).memory
  have hio : m'.io.map (·.config) = m.io.map (·.config) := by
    have hconfig := congrArg (fun m : Machine => m.io.map (·.config)) hm
    simpa [marked, changeIo, Function.comp_def, Io.marked] using hconfig
  exact ⟨hmemory ▸ h.flat, fun c hc => h.columns c (hio ▸ hc)⟩

theorem table_of_marked (hm : m'.marked = m.marked) : m'.table = m.table := by
  change m'.marked.table = m.marked.table
  rw [hm]

theorem isHalted_of_marked (hm : m'.marked = m.marked) : m'.isHalted = m.isHalted := by
  rw [isHalted, isHalted, (alike_of_marked hm).status]

theorem Sound.withScreen (h : m.Sound) (s : Screen) : (m.withScreen s).Sound := by
  refine ⟨h.flat, fun c hc => h.columns c ?_⟩
  simpa [Machine.withScreen, Function.comp_def] using hc

end Machine

namespace Window

variable {w : Window T} {count : Int}

/-- The machine has the standard opcodes, and no access to it can fail. -/
structure Standard (w : Window T) : Prop where
  sound : w.machine.Sound
  table : w.machine.table = .standard

/-- The actions that are enabled make sense: a pause while the timer is active, a run and a step
while it is not and the processor is not halted. A halted processor has no active timer. -/
structure Consistent (w : Window T) : Prop where
  pause : w.isEnabled .pause = w.running
  run : w.isEnabled .run = (!w.running && !w.machine.isHalted)
  step : w.isEnabled .step = (!w.running && !w.machine.isHalted)
  timer : w.running = true → w.machine.isHalted = false

/-- Buttons set for the timer as it is are right. -/
theorem showActions_consistent (hT : T.Laws) {running : Bool} (hr : w.running = running)
    (h : running = true → w.machine.isHalted = false) : (w.showActions running).Consistent := by
  subst hr
  exact ⟨hT.set_enabled _ _, hT.set_enabled _ _, hT.set_enabled _ _, h⟩

/-- With the timer stopped, whatever the processor does. -/
theorem idle_consistent (hT : T.Laws) (w : Window T) :
    (w.stopTimer.showActions false).Consistent :=
  showActions_consistent hT (hT.stop_inactive w.timer) nofun

theorem Consistent.shown (h : w.Consistent) : w.showStatus.Consistent :=
  ⟨h.pause, h.run, h.step, h.timer⟩

theorem Consistent.refreshed (h : w.Consistent) : w.refreshed.Consistent := by
  have hhalted := Machine.isHalted_of_marked (marked_refreshed w)
  rw [refreshed_eq]
  exact ⟨h.pause, by rw [hhalted]; exact h.run, by rw [hhalted]; exact h.step,
    by rw [hhalted]; exact h.timer⟩

/-- Of a processor that halted, nothing before it matters. -/
theorem caughtUp_consistent (hT : T.Laws) (h : w.machine.isHalted = false → w.Consistent) :
    w.caughtUp.Consistent := by
  refine Consistent.shown (Consistent.refreshed ?_)
  split
  · exact idle_consistent hT w
  · rename_i hhalted
    exact h (by simpa using hhalted)

def ran (count : Int) (w : Window T) : Window T :=
  match Machine.run count.toNat w.machine with
  | .ok _ m => { w with machine := m }.caughtUp
  | .error e m => { w.stopTimer with machine := m, message := e.message }.caughtUp

theorem marked_ran (count : Int) (w : Window T) :
    (w.ran count).machine.marked =
      (after (Machine.run count.toNat) w.machine).marked := by
  unfold ran after
  cases Machine.run count.toNat w.machine with
  | ok k m => exact marked_caughtUp _
  | error e m => exact marked_caughtUp _

theorem label_ran (count : Int) (w : Window T) : (w.ran count).label = (w.ran count).status := by
  unfold ran
  cases Machine.run count.toNat w.machine <;> rfl

theorem runSteps_standard (h : w.Standard) (count : Int) :
    runSteps count w = .ok () (w.ran count) := by
  unfold ran
  cases hrun : Machine.run count.toNat w.machine with
  | ok k m => exact runSteps_ok hrun
  | error e m =>
    have hkind : e.kind = .decode := Machine.run_standard h.sound h.table hrun
    cases e with
    | unknownOpcode opcode address => exact runSteps_undefined hrun
    | _ => cases hkind

theorem Standard.ran (h : w.Standard) (count : Int) : (w.ran count).Standard := by
  have hmarked := marked_ran count w
  have hrun := Machine.does_run count.toNat
  have hsteady := hrun.keeps (I := Machine.Steady w.machine)
    (fun _ _ hm he => hm.trans (he.steady hm.flat)) ⟨h.sound.flat, rfl, rfl, rfl⟩
  have hsound := hrun.keeps (fun _ _ => Machine.Sound.effect) h.sound
  exact ⟨hsound.of_marked hmarked, (Machine.table_of_marked hmarked).trans
    (hsteady.table.trans h.table)⟩

/-- A processor that runs on was running before, and one that stumbled is halted. -/
theorem Consistent.ran (hT : T.Laws) (hc : w.Consistent) (h : w.Standard) (count : Int) :
    (w.ran count).Consistent := by
  unfold Window.ran
  cases hrun : Machine.run count.toNat w.machine with
  | ok k m =>
    refine caughtUp_consistent hT fun hm => ?_
    have hw : w.machine.isHalted = false := by
      by_contra hhalted
      rw [Machine.run_halted (by simpa using hhalted)] at hrun
      cases hrun
      exact hhalted hm
    have hready : (!w.running && !w.machine.isHalted) = (!w.running && !m.isHalted) := by
      rw [hw, hm]
    exact ⟨hc.pause, hc.run.trans hready, hc.step.trans hready, fun _ => hm⟩
  | error e m =>
    have hkind : e.kind = .decode := Machine.run_standard h.sound h.table hrun
    have hhalted : m.isHalted = true := Machine.isHalted_of_run h.sound.flat hrun hkind
    refine caughtUp_consistent hT fun hm => ?_
    cases hhalted.symm.trans hm

theorem Standard.anew (h : w.Standard) : w.anew.Standard := by
  have hwiped : w.wiped.Sound := h.sound.zeroed _ _
  have hrestarted : w.restarted.Sound := ⟨(hwiped.flat.loaded _ _).move _ _, hwiped.columns⟩
  have htable : w.restarted.table = .standard := by
    rw [restarted_eq]
    exact h.table
  have hrestored : w.restored.Sound ∧ w.restored.table = .standard := by
    unfold restored
    cases w.restarted.screen? with
    | none => exact ⟨hrestarted, htable⟩
    | some s => exact ⟨hrestarted.withScreen _, htable⟩
  have hmarked := marked_refreshed { w.paused with machine := w.restored }
  exact ⟨hrestored.1.of_marked hmarked, (Machine.table_of_marked hmarked).trans hrestored.2⟩

def started (w : Window T) : Window T :=
  if w.machine.isHalted then w
  else { w with timer := T.startTimer w.timer, focused := w.focused + 1 }.showActions true

theorem started_halted (h : w.machine.isHalted = true) : w.started = w := if_pos h

theorem started_running (h : w.machine.isHalted = false) :
    w.started =
      { w with timer := T.startTimer w.timer, focused := w.focused + 1 }.showActions true :=
  if_neg (by simp [h])

theorem machine_started (w : Window T) : w.started.machine = w.machine := by
  unfold started
  split <;> rfl

theorem label_started (w : Window T) : w.started.label = w.label := by
  unfold started
  split <;> rfl

theorem running_started (hT : T.Laws) (w : Window T) :
    w.started.running = (w.running || !w.machine.isHalted) := by
  cases h : w.machine.isHalted with
  | true =>
    rw [started_halted h]
    simp
  | false =>
    rw [started_running h]
    exact (hT.start_active w.timer).trans (Bool.or_true w.running).symm

theorem Consistent.started (hT : T.Laws) (hc : w.Consistent) : w.started.Consistent := by
  cases h : w.machine.isHalted with
  | true =>
    rw [started_halted h]
    exact hc
  | false =>
    rw [started_running h]
    exact showActions_consistent hT (hT.start_active w.timer) fun _ => h

end Window

namespace Slot

open Window

variable {w : Window T}

def result : Slot → Window T → Window T
  | start => Window.started
  | pause => fun w => (w.stopTimer.showActions false).showStatus
  | step => fun w => (w.ran 1).showActions (w.ran 1).running
  | reset => Window.anew
  | tick => fun w => w.ran w.config.display.stepsPerTick

theorem act_standard (s : Slot) (h : w.Standard) : s.act w = .ok () (s.result w) := by
  cases s with
  | start => rfl
  | pause => rfl
  | step => exact bind_ok (runSteps_standard h 1)
  | reset => exact bind_ok (reset_sound h.sound)
  | tick => exact runSteps_standard h w.config.display.stepsPerTick

theorem result_standard (s : Slot) (h : w.Standard) : (s.result w).Standard := by
  cases s with
  | start =>
    have hmachine : w.started.machine = w.machine := machine_started w
    exact ⟨hmachine ▸ h.sound, hmachine ▸ h.table⟩
  | pause => exact ⟨h.sound, h.table⟩
  | step => exact ⟨(h.ran 1).sound, (h.ran 1).table⟩
  | reset => exact h.anew
  | tick => exact h.ran _

theorem result_consistent (hT : T.Laws) (s : Slot) (h : w.Standard) (hc : w.Consistent) :
    (s.result w).Consistent := by
  cases s with
  | start => exact hc.started hT
  | pause => exact (idle_consistent hT w).shown
  | step => exact showActions_consistent hT rfl (hc.ran hT h 1).timer
  | reset =>
    change w.anew.Consistent
    have hidle : w.anew.running = false := running_anew hT w
    obtain ⟨hrun, hpause, hstep, -⟩ := isEnabled_anew hT w
    exact ⟨by rw [hpause, hidle], by simp [hrun, hidle], by simp [hstep, hidle], by simp [hidle]⟩
  | tick => exact hc.ran hT h _

/-- The line of text is up to date after every slot but the start. -/
theorem label_result {s : Slot} (hs : s ≠ start) (w : Window T) :
    (s.result w).label = (s.result w).status := by
  cases s with
  | start => exact absurd rfl hs
  | pause => rfl
  | step => exact label_ran 1 w
  | reset => exact label_anew w
  | tick => exact label_ran _ w

/-- The slots up to the last one that is not a start. -/
def settled (slots : List Slot) : List Slot := slots.rdropWhile (· == start)

theorem settled_start (slots : List Slot) : settled (slots ++ [start]) = settled slots :=
  List.rdropWhile_concat_pos _ _ _ rfl

theorem settled_other {s : Slot} (hs : s ≠ start) (slots : List Slot) :
    settled (slots ++ [s]) = slots ++ [s] :=
  List.rdropWhile_concat_neg _ _ _ (by simpa using hs)

end Slot

namespace Window

variable {w : Window T}

theorem create_consistent (hT : T.Laws) (m : Machine) (program : List Byte)
    (config : SystemConfig) : (create T m program config).Consistent := by
  refine Consistent.shown (showActions_consistent hT ?_ nofun)
  exact hT.new_inactive config.display.tickInterval

theorem afterSlots_append (w : Window T) (slots : List Slot) (s : Slot) :
    w.afterSlots (slots ++ [s]) = after s.act (w.afterSlots slots) := by
  simp [afterSlots]

theorem Standard.afterSlots (h : w.Standard) (slots : List Slot) :
    (w.afterSlots slots).Standard := by
  induction slots using List.reverseRecOn with
  | nil => exact h
  | append_singleton slots s ih =>
    rw [afterSlots_append, after_ok (s.act_standard ih)]
    exact s.result_standard ih

theorem Consistent.afterSlots (hT : T.Laws) (hc : w.Consistent) (h : w.Standard) (slots : List Slot) :
    (w.afterSlots slots).Consistent := by
  induction slots using List.reverseRecOn with
  | nil => exact hc
  | append_singleton slots s ih =>
    rw [afterSlots_append, after_ok (s.act_standard (h.afterSlots slots))]
    exact s.result_consistent hT (h.afterSlots slots) ih

/-- Whatever slots are called, and in whatever order, none of them fails and all of them leave the
actions consistent. -/
theorem slots_consistent (hT : T.Laws) {m : Machine} (h : m.Sound) (ht : m.table = .standard)
    (program : List Byte) (config : SystemConfig) (slots : List Slot) :
    let w := (create T m program config).afterSlots slots
    w.Consistent ∧ ∀ s : Slot, outcome s.act w = .ok () := by
  intro w
  have hstandard : (create T m program config).Standard := ⟨h, ht⟩
  exact ⟨(create_consistent hT m program config).afterSlots hT hstandard slots,
    fun s => outcome_ok (s.act_standard (hstandard.afterSlots slots))⟩

/-- A processor that stumbles over its first byte, under an active timer and then in a single step. -/
theorem slots_consistent_stumbling :
    let c : SystemConfig := {}
    let built := c.build (.screen c.screen) ⟨fun _ => 0, 0⟩ .standard
    let m := { built with memory := built.memory.loaded c.origin [0x02] }
    m.Sound ∧ m.table = .standard ∧
      ((create .plain m [0x02] c).afterSlots [.start, .tick, .start, .step, .reset]).Consistent := by
  intro c built m
  have hsound : m.Sound := ((c.build_equips _ _).loaded _ _).sound (by decide)
  exact ⟨hsound, rfl, (slots_consistent Toolkit.plain_laws hsound rfl [0x02] c _).1⟩

/-- While the processor is not halted, the line tells whether the timer is active. -/
theorem statusLine_first {m : Machine} (h : m.isHalted = false) (running : Bool) :
    (m.statusLine running).toList.head? = some (if running then 'R' else 'P') := by
  cases running <;> simp [Machine.statusLine, h, toString]

/-- Starts at the end of the slots change nothing but whether the timer is active. -/
theorem afterSlots_settled (hT : T.Laws) (h : w.Standard) (hlabel : w.label = w.status) (slots : List Slot) :
    let before := w.afterSlots (Slot.settled slots)
    let now := w.afterSlots slots
    before.label = before.status ∧ now.machine = before.machine ∧ now.label = before.label ∧
      now.running = (before.running ||
        (slots.getLast? == some .start && !now.machine.isHalted)) := by
  -- from the end of the slots, where the starts are
  induction slots using List.reverseRecOn with
  | nil => exact ⟨hlabel, rfl, rfl, (Bool.or_false w.running).symm⟩
  | append_singleton slots s ih =>
    have hresult := after_ok (s.act_standard (h.afterSlots slots))
    by_cases hs : s = .start
    · subst hs
      obtain ⟨hbefore, hmachine, hkept, hrunning⟩ := ih
      have hmachine' := machine_started (w.afterSlots slots)
      have hkept' := label_started (w.afterSlots slots)
      have hrunning' := running_started hT (w.afterSlots slots)
      change after Slot.start.act (w.afterSlots slots) = (w.afterSlots slots).started at hresult
      rw [Slot.settled_start, afterSlots_append, hresult]
      refine ⟨hbefore, hmachine'.trans hmachine, hkept'.trans hkept, hrunning'.trans ?_⟩
      rw [hrunning, hmachine']
      cases (w.afterSlots slots).machine.isHalted <;> simp
    · rw [Slot.settled_other hs, afterSlots_append, hresult]
      exact ⟨Slot.label_result hs _, rfl, rfl, by simp [hs]⟩

/-- The line of text shows the machine as it is, and the timer as it was before the starts at the
end of the slots; so it is right unless one of these started the timer. -/
theorem label_shows (hT : T.Laws) {m : Machine} (h : m.Sound) (ht : m.table = .standard)
    (program : List Byte) (config : SystemConfig) (slots : List Slot) :
    let before := (create T m program config).afterSlots (Slot.settled slots)
    let w := (create T m program config).afterSlots slots
    w.label = w.machine.statusLine before.running ∧
      (w.label = w.status ↔
        slots.getLast? ≠ some .start ∨ w.machine.isHalted = true ∨ before.running = true) := by
  intro before w
  have hstandard : (create T m program config).Standard := ⟨h, ht⟩
  obtain ⟨hbefore, hmachine, hkept, hrunning⟩ := afterSlots_settled hT hstandard rfl slots
  change w.machine = before.machine at hmachine
  change w.running = (before.running || (_ && !w.machine.isHalted)) at hrunning
  have hlabel : w.label = w.machine.statusLine before.running := by
    rw [hmachine]
    exact hkept.trans hbefore
  refine ⟨hlabel, ?_⟩
  rw [hlabel, status]
  constructor
  · intro hsame
    by_contra hstale
    simp only [not_or, not_not, Bool.not_eq_true] at hstale
    obtain ⟨hlast, hhalted, hidle⟩ := hstale
    have hstarted : w.running = true := by simp [hrunning, hlast, hhalted]
    have hfirst := congrArg (fun t : String => t.toList.head?) hsame
    rw [statusLine_first hhalted, statusLine_first hhalted, hidle, hstarted] at hfirst
    cases hfirst
  · intro hfresh
    have hrun : w.running = before.running := by
      rcases hfresh with hlast | hhalted | hrun
      · simp [hrunning, hlast]
      · simp [hrunning, hhalted]
      · simp [hrunning, hrun]
    rw [hrun]

/-- A start by itself. The line still shows the timer as it was. -/
theorem label_shows_start :
    let c : SystemConfig := {}
    let built := c.build (.screen c.screen) ⟨fun _ => 0, 0⟩ .standard
    let m := { built with memory := built.memory.loaded c.origin [0xEA] }
    let w := (create .plain m [0xEA] c).afterSlots [.start]
    m.Sound ∧ m.table = .standard ∧ w.label = w.machine.statusLine false := by
  intro c built m
  have hsound : m.Sound := ((c.build_equips _ _).loaded _ _).sound (by decide)
  exact ⟨hsound, rfl, (label_shows Toolkit.plain_laws hsound rfl [0xEA] c [.start]).1⟩

/-- So the line is not always that of the window as it is. -/
theorem label_stale :
    let c : SystemConfig := {}
    let built := c.build (.screen c.screen) ⟨fun _ => 0, 0⟩ .standard
    let m := { built with memory := built.memory.loaded c.origin [0xEA] }
    let w := (create .plain m [0xEA] c).afterSlots [.start]
    m.Sound ∧ m.table = .standard ∧ w.label ≠ w.status := by
  intro c built m w
  have hsound : m.Sound := ((c.build_equips _ _).loaded _ _).sound (by decide)
  refine ⟨hsound, rfl, fun hsame => ?_⟩
  -- the label is that of the window before the start, whose timer is not active
  have hlabel : w.label = m.statusLine false := rfl
  have hstatus : w.status = m.statusLine true := rfl
  have hfirst := congrArg (fun t : String => t.toList.head?) hsame
  rw [hlabel, hstatus, statusLine_first rfl, statusLine_first rfl] at hfirst
  cases hfirst

end Window

end Micro6502
