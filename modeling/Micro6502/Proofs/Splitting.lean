import Micro6502.Proofs.Stopping

namespace Micro6502.Session

variable {s t : Session} {n m : Nat} {resumed : Bool} {reason : StopReason}

/-- A run at its bound has met no ground to stop. -/
theorem runOn_stepLimit (h : runOn resumed n s = .ok .stepLimit t) :
    s.stopRequested = false ∧ s.machine.isHalted = false := by
  cases hr : s.stopRequested with
  | true => simp [runOn_stopped hr] at h
  | false =>
    cases hh : s.machine.isHalted with
    | true => simp [runOn_halted hr hh] at h
    | false => exact ⟨rfl, rfl⟩

/-- A run that may take a step and reaches its bound has taken it. -/
theorem runOn_succ_stepLimit (h : runOn resumed (n + 1) s = .ok .stepLimit t) :
    ∃ s', s'.debugger.lastHit = s.debugger.lastHit ∧ runOn true n s' = .ok .stepLimit t ∧
      ∀ limit, runOn resumed (limit + 1) s = runOn true limit s' := by
  obtain ⟨hr, hh⟩ := runOn_stepLimit h
  cases hb : (if resumed then s.debugger.hitBefore? s.machine.memory.pc else none) with
  | some b => simp [runOn_held hr hh hb] at h
  | none =>
    rw [runOn_step hr hh hb] at h
    cases hs : Machine.step s.machine with
    | error e machine => simp [bind_error (step_error hs)] at h
    | ok snapshot machine =>
      rw [bind_ok (step_ok hs), bind_ok (get_ok _)] at h
      cases hhit : (s.debugger.record snapshot).hitAfter? s.machine.state snapshot with
      | some b =>
        rw [hhit] at h
        cases h
      | none =>
        rw [hhit] at h
        refine ⟨⟨machine, s.debugger.record snapshot⟩, rfl, h, fun limit => ?_⟩
        rw [runOn_step hr hh hb, bind_ok (step_ok hs), bind_ok (get_ok _), hhit]

/-- From its bound a run goes on as it would have gone on with a larger one. -/
theorem runOn_add (h : runOn resumed n s = .ok .stepLimit t) (m : Nat) :
    t.debugger.lastHit = s.debugger.lastHit ∧
      runOn resumed (n + m) s = runOn (resumed || decide (0 < n)) m t := by
  -- after its first step the run counts as resumed, whatever it was before
  induction n generalizing resumed s with
  | zero =>
    obtain ⟨hr, hh⟩ := runOn_stepLimit h
    rw [runOn_zero hr hh] at h
    cases h
    simp
  | succ n ih =>
    obtain ⟨s', hlast, hrest, hstep⟩ := runOn_succ_stepLimit h
    obtain ⟨hlast', hadd⟩ := ih hrest
    refine ⟨hlast'.trans hlast, ?_⟩
    rw [Nat.add_right_comm, hstep, hadd]
    simp

/-- The machine at a bound has not halted, and nobody has asked to stop. -/
theorem runOn_end (h : runOn resumed n s = .ok .stepLimit t) :
    t.stopRequested = false ∧ t.machine.isHalted = false :=
  runOn_stepLimit ((runOn_add h 0).2.symm.trans h)

/-- Another run sets out from there as it is. -/
theorem fresh_end (h : run n s = .ok .stepLimit t) : t.fresh = t := by
  have hrun : runOn false n s.fresh = .ok .stepLimit t := h
  have hlast : t.debugger.lastHit = none := (runOn_add hrun 0).1
  have hcalm : t.machine.calm = t.machine := Machine.calm_eq (runOn_end hrun).1
  obtain ⟨machine, debugger⟩ := t
  rw [fresh, hcalm, ← hlast]

/-- A running machine takes a step if it may. -/
theorem run_steps (h : run m t = .ok reason s) (ht : t.machine.isHalted = false) (hm : 0 < m) :
    t.machine.steps < s.machine.steps := by
  obtain ⟨k, hk, hend, hmachine⟩ := run_ok h
  obtain ⟨hleast, hgoes⟩ := isLeast_iff.mpr ⟨hk, Option.isSome_iff_exists.mpr ⟨_, hend⟩⟩
  have hpos : 1 ≤ k := hleast.1.pos ht fun n hn => by
    cases hn
    omega
  have hsteps : s.machine.steps = t.machine.steps + k :=
    (congrArg Machine.steps hmachine).trans
      (Machine.steps_stepped hgoes (Machine.running_of_isLeast hleast))
  omega

/-- A run that ends at its bound and another one after it are one run, unless a breakpoint on the
counter waits where the first one ends. There the long run stops, and the second one goes past. -/
theorem run_split (h : run n s = .ok .stepLimit t) (m : Nat) :
    (n = 0 ∨ m = 0 ∨ t.debugger.hitBefore? t.machine.memory.pc = none →
      run m t = run (n + m) s) ∧
    ∀ b, t.debugger.hitBefore? t.machine.memory.pc = some b → 0 < n → 0 < m →
      run (n + m) s = .ok (.breakpoint t.machine.memory.pc) (t.endedBy (some b)) ∧
      ∀ reason u, run m t = .ok reason u → t.machine.steps < u.machine.steps := by
  have hrun : runOn false n s.fresh = .ok .stepLimit t := h
  obtain ⟨hr, hh⟩ := runOn_end hrun
  have hlong : run (n + m) s = runOn (decide (0 < n)) m t := by
    rw [← Bool.false_or (decide (0 < n))]
    exact (runOn_add hrun m).2
  have hsecond : run m t = runOn false m t := by
    change runOn false m t.fresh = _
    rw [fresh_end h]
  rw [hlong, hsecond]
  constructor
  · rintro (rfl | rfl | hb)
    · rfl
    · rw [runOn_zero hr hh, runOn_zero hr hh]
    · cases m with
      | zero => rw [runOn_zero hr hh, runOn_zero hr hh]
      | succ m => rw [runOn_step hr hh rfl, runOn_step hr hh (by simp [hb])]
  · intro b hb hn hm
    obtain ⟨m, rfl⟩ : ∃ l, m = l + 1 := ⟨m - 1, by omega⟩
    exact ⟨runOn_held hr hh (by simp [hn, hb]) m,
      fun reason u hu => run_steps (hsecond.trans hu) hh hm⟩

/-- Five instructions that do nothing, and a breakpoint on the third: the long run stops there. -/
theorem run_split_idle :
    let program : Ram := ⟨#[0xEA, 0xEA, 0xEA, 0xEA, 0xEA, 0x00]⟩
    let bus : Bus := { mappings := [⟨0x0600, 0x0605, .ram program⟩] }
    let b : Breakpoint := { condition := .pcMatch, value := some 0x0602 }
    let s : Session := ⟨{ memory := { bus } }, { breakpoints := [b] }⟩
    ∃ t, run 2 s = .ok .stepLimit t ∧
      t.debugger.hitBefore? t.machine.memory.pc = some b ∧ 0 < 2 ∧
      run (2 + 2) s = .ok (.breakpoint t.machine.memory.pc) (t.endedBy (some b)) := by
  intro program bus b s
  have hrun : run 2 s = .ok .stepLimit (after (run 2) s) :=
    outcome_eq_ok.mp (outcome_of_toOption (by decide +kernel))
  have hheld : (after (run 2) s).debugger.hitBefore? (after (run 2) s).machine.memory.pc =
      some b := by
    decide +kernel
  exact ⟨_, hrun, hheld, by decide,
    ((run_split hrun 2).2 b hheld (by decide) (by decide)).1⟩

/-- In two parts the run goes past that breakpoint. -/
theorem run_split_passes :
    let program : Ram := ⟨#[0xEA, 0xEA, 0xEA, 0xEA, 0xEA, 0x00]⟩
    let bus : Bus := { mappings := [⟨0x0600, 0x0605, .ram program⟩] }
    let b : Breakpoint := { condition := .pcMatch, value := some 0x0602 }
    let s : Session := ⟨{ memory := { bus } }, { breakpoints := [b] }⟩
    outcome (run 2) s = .ok .stepLimit ∧
      outcome (run 2) (after (run 2) s) = .ok .stepLimit ∧
      (after (run 2) (after (run 2) s)).debugger.lastHit = none ∧
      outcome (run (2 + 2)) s = .ok (.breakpoint 0x0602) ∧
      (after (run (2 + 2)) s).debugger.lastHit = some b := by
  intro program bus b s
  have hruns : (outcome (run 2) s).toOption = some .stepLimit ∧
      (outcome (run 2) (after (run 2) s)).toOption = some .stepLimit ∧
      (after (run 2) (after (run 2) s)).debugger.lastHit = none ∧
      (outcome (run (2 + 2)) s).toOption = some (.breakpoint 0x0602) ∧
      (after (run (2 + 2)) s).debugger.lastHit = some b := by
    decide +kernel
  obtain ⟨hfirst, hsecond, hnone, hlong, hhit⟩ := hruns
  exact ⟨outcome_of_toOption hfirst, outcome_of_toOption hsecond, hnone,
    outcome_of_toOption hlong, hhit⟩

end Micro6502.Session
