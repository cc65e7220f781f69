import Mathlib.Logic.Function.Iterate
import Micro6502.Proofs.Unread

namespace Micro6502.Machine

variable {m m' : Machine} {i j k limit : Nat} {s : Snapshot} {e : Fault}

def stepped (m : Machine) (i : Nat) : Machine := (after step)^[i] m

@[simp] theorem stepped_zero (m : Machine) : m.stepped 0 = m := rfl

theorem stepped_succ (m : Machine) (i : Nat) : m.stepped (i + 1) = after step (m.stepped i) :=
  Function.iterate_succ_apply' _ _ _

theorem stepped_after (m : Machine) (i : Nat) : (after step m).stepped i = m.stepped (i + 1) :=
  (Function.iterate_succ_apply _ _ _).symm

theorem stepped_one (m : Machine) : m.stepped 1 = after step m := stepped_succ m 0

/-- What every effect preserves, steps preserve. -/
theorem stepped_keeps {I : Machine → Prop} (hI : ∀ m m', I m → Effect m m' → I m') (h : I m)
    (i : Nat) : I (m.stepped i) := by
  induction i with
  | zero => exact h
  | succ i ih => exact stepped_succ m i ▸ does_step.keeps hI ih

theorem stepped_steady (h : m.memory.Flat) (i : Nat) : Steady m (m.stepped i) :=
  stepped_keeps (I := Steady m) (fun _ _ hm he => hm.trans (he.steady hm.flat)) ⟨h, rfl, rfl, rfl⟩ i

/-- The snapshots of the first `n` steps; a step that fails has none. -/
def snapshots (m : Machine) (n : Nat) : List Snapshot :=
  (List.range n).flatMap fun i => (outcome step (m.stepped i)).toOption.toList

theorem snapshots_succ (hs : outcome step (m.stepped k) = .ok s) :
    m.snapshots (k + 1) = m.snapshots k ++ [s] := by
  rw [snapshots, List.range_succ, List.flatMap_append, List.flatMap_singleton, hs]
  rfl

theorem snapshots_fail (hs : outcome step (m.stepped k) = .error e) :
    m.snapshots (k + 1) = m.snapshots k := by
  rw [snapshots, List.range_succ, List.flatMap_append, List.flatMap_singleton, hs]
  exact List.append_nil _

def Goes (m : Machine) (k : Nat) : Prop := ∀ i < k, ∃ s, outcome step (m.stepped i) = .ok s

/-- Steps that succeed on a running machine are counted. -/
theorem steps_stepped (hgo : m.Goes k) (hrunning : ∀ i < k, (m.stepped i).isHalted = false) :
    (m.stepped k).steps = m.steps + k := by
  induction k with
  | zero => rfl
  | succ k ih =>
    obtain ⟨s, hs⟩ := hgo k (Nat.lt_succ_self k)
    have hk := ih (fun i hi => hgo i (by omega)) fun i hi => hrunning i (by omega)
    rw [stepped_succ, step_steps (outcome_eq_ok.mp hs), hk, hrunning k (Nat.lt_succ_self k)]
    rfl

theorem runFrom_halted (h : m.isHalted = true) (done limit : Nat) :
    runFrom done limit m = .ok done m := by
  cases limit with
  | zero => rfl
  | succ limit =>
    change (if m.isHalted = true then pure done else _ : MachineM Nat) m = _
    rw [if_pos h]
    rfl

theorem runFrom_running (h : m.isHalted = false) (done limit : Nat) :
    runFrom done (limit + 1) m = (step >>= fun _ => runFrom (done + 1) limit) m := by
  change (if m.isHalted = true then pure done else
    step >>= fun _ => runFrom (done + 1) limit : MachineM Nat) m = _
  rw [if_neg (by simp [h])]

theorem runFrom_step (h : m.isHalted = false) (hs : step m = .ok s m') (done limit : Nat) :
    runFrom done (limit + 1) m = runFrom (done + 1) limit m' := by
  rw [runFrom_running h, bind_ok hs]

theorem runFrom_fail (h : m.isHalted = false) (hs : step m = .error e m') (done limit : Nat) :
    runFrom done (limit + 1) m = .error e m' := by
  rw [runFrom_running h, bind_error hs]

theorem run_halted (h : m.isHalted = true) (limit : Nat) : run limit m = .ok 0 m :=
  runFrom_halted h 0 limit

theorem run_fail (h : m.isHalted = false) (hs : step m = .error e m') (limit : Nat) :
    run (limit + 1) m = .error e m' :=
  runFrom_fail h hs 0 limit

/-- A plain run that has come to `k` and either may or can go no further. -/
theorem runFrom_stepped (hik : i ≤ k) (hgo : m.Goes k)
    (hrunning : ∀ j < k, (m.stepped j).isHalted = false)
    (hend : i + limit = k ∨ k ≤ i + limit ∧ (m.stepped k).isHalted = true) :
    runFrom i limit (m.stepped i) = .ok k (m.stepped k) := by
  induction limit generalizing i with
  | zero =>
    obtain rfl : i = k := by omega
    rfl
  | succ limit ih =>
    rcases Nat.eq_or_lt_of_le hik with rfl | hlt
    · have hhalted : (m.stepped i).isHalted = true := by
        rcases hend with hend | hend
        · omega
        · exact hend.2
      exact runFrom_halted hhalted i (limit + 1)
    · obtain ⟨s, hs⟩ := hgo i hlt
      rw [runFrom_step (hrunning i hlt) (outcome_eq_ok.mp hs), ← stepped_succ]
      exact ih hlt (hend.imp (by omega) fun h => ⟨by omega, h.2⟩)

/-- The count that a run sets out with is added to what it returns, and matters for nothing else. -/
theorem runFrom_eq (done limit : Nat) (m : Machine) :
    runFrom done limit m = match run limit m with
      | .ok k m' => .ok (done + k) m'
      | .error e m' => .error e m' := by
  induction limit generalizing done m with
  | zero => rfl
  | succ limit ih =>
    cases h : m.isHalted with
    | true =>
      rw [runFrom_halted h, run_halted h]
      rfl
    | false =>
      cases hs : step m with
      | error e m' => rw [runFrom_fail h hs, run_fail h hs]
      | ok s m' =>
        rw [run, runFrom_step h hs, runFrom_step h hs, ih (done + 1), ih (0 + 1)]
        cases run limit m' with
        | error e m' => rfl
        | ok k m' => simp only [Nat.zero_add, Nat.add_assoc]

theorem run_step (h : m.isHalted = false) (hs : step m = .ok s m') (limit : Nat) :
    run (limit + 1) m = match run limit m' with
      | .ok k m' => .ok (1 + k) m'
      | .error e m' => .error e m' := by
  rw [run, runFrom_step h hs, runFrom_eq]

theorem after_run_halted (h : m.isHalted = true) (limit : Nat) : after (run limit) m = m :=
  after_ok (run_halted h limit)

theorem after_run_fail (h : m.isHalted = false) (hs : step m = .error e m') (limit : Nat) :
    after (run (limit + 1)) m = m' :=
  after_error (run_fail h hs limit)

theorem after_run_step (h : m.isHalted = false) (hs : step m = .ok s m') (limit : Nat) :
    after (run (limit + 1)) m = after (run limit) m' := by
  rw [after, after, run_step h hs]
  cases run limit m' <;> rfl

/-- A long run is two short ones; the second does not begin if the first fails. -/
theorem run_add (j k : Nat) : run (j + k) = do return (← run j) + (← run k) := by
  funext m
  induction j generalizing m with
  | zero =>
    have hzero : run 0 m = .ok 0 m := rfl
    rw [bind_ok hzero, Nat.zero_add]
    simp only [Nat.zero_add, bind_pure]
  | succ j ih =>
    rw [Nat.add_right_comm]
    cases h : m.isHalted with
    | true =>
      rw [run_halted h, bind_ok (run_halted h (j + 1)), bind_ok (run_halted h k)]
      rfl
    | false =>
      cases hs : step m with
      | error e m' => rw [run_fail h hs, bind_error (run_fail h hs j)]
      | ok s m' =>
        have hfirst := run_step h hs j
        rw [run_step h hs, ih]
        cases hj : run j m' with
        | error e m₁ =>
          rw [hj] at hfirst
          rw [bind_error hj, bind_error hfirst]
        | ok i m₁ =>
          rw [hj] at hfirst
          rw [bind_ok hj, bind_ok hfirst]
          cases hk : run k m₁ with
          | error e m₂ => rw [bind_error hk, bind_error hk]
          | ok l m₂ =>
            rw [bind_ok hk, bind_ok hk]
            exact congrArg (EStateM.Result.ok · m₂) (Nat.add_assoc 1 i l).symm

theorem run_add_error (h : run j m = .error e m') (k : Nat) : run (j + k) m = .error e m' := by
  rw [run_add, bind_error h]

/-- A run that fails ends with the step that fails. -/
theorem run_error (h : run limit m = .error e m') :
    ∃ i, outcome step (m.stepped i) = .error e ∧ m' = m.stepped (i + 1) := by
  induction limit generalizing m with
  | zero => cases h
  | succ limit ih =>
    cases hm : m.isHalted with
    | true => simp [run_halted hm] at h
    | false =>
      cases hs : step m with
      | error e' m₁ =>
        rw [run_fail hm hs] at h
        cases h
        exact ⟨0, outcome_error hs, (after_error hs).symm.trans (stepped_one m).symm⟩
      | ok s m₁ =>
        rw [run_step hm hs] at h
        cases hrest : run limit m₁ with
        | ok k m₂ => simp [hrest] at h
        | error e' m₂ =>
          rw [hrest] at h
          cases h
          obtain ⟨i, hi, hm'⟩ := ih hrest
          rw [← after_ok hs, stepped_after] at hi hm'
          exact ⟨i + 1, hi, hm'⟩

/-- A run takes no more steps than it may, and counts them as the processor does. -/
theorem run_count (h : run limit m = .ok k m') : k ≤ limit ∧ m'.steps = m.steps + k := by
  induction limit generalizing m k with
  | zero =>
    cases h
    exact ⟨Nat.le_refl 0, rfl⟩
  | succ limit ih =>
    cases hm : m.isHalted with
    | true =>
      rw [run_halted hm] at h
      cases h
      exact ⟨Nat.zero_le _, rfl⟩
    | false =>
      cases hs : step m with
      | error e m₁ =>
        rw [run_fail hm hs] at h
        cases h
      | ok s m₁ =>
        rw [run_step hm hs] at h
        cases hrun : run limit m₁ with
        | error e m₂ => simp [hrun] at h
        | ok n m₂ =>
          rw [hrun] at h
          cases h
          obtain ⟨hle, hsteps⟩ := ih hrun
          have hfirst : m₁.steps = m.steps + 1 := by simpa [hm] using step_steps hs
          exact ⟨by omega, by omega⟩

/-- How a run ends. Without a bound it ends where the processor has halted or a step fails. -/
def Ends (m : Machine) : Option Int → EStateM.Result Fault Machine Nat → Prop
  | some bound, r => run bound.toNat m = r
  | none, .ok k m' => m'.isHalted = true ∧ ∃ limit, run limit m = .ok k m'
  | none, .error e m' => ∃ limit, run limit m = .error e m'

/-- A run without a bound that ends is one with a bound. -/
theorem Ends.bounded {bound : Option Int} {r : EStateM.Result Fault Machine Nat}
    (h : m.Ends bound r) : ∃ limit : Nat, run limit m = r := by
  match bound, r, h with
  | some bound, _, h => exact ⟨bound.toNat, h⟩
  | none, .ok _ _, ⟨_, limit, h⟩ => exact ⟨limit, h⟩
  | none, .error _ _, ⟨limit, h⟩ => exact ⟨limit, h⟩

theorem ends_halted (h : m.isHalted = true) {bound : Option Int}
    {r : EStateM.Result Fault Machine Nat} : m.Ends bound r ↔ r = .ok 0 m := by
  constructor
  · intro hr
    obtain ⟨limit, rfl⟩ := hr.bounded
    exact run_halted h limit
  · rintro rfl
    cases bound with
    | some bound => exact run_halted h bound.toNat
    | none => exact ⟨h, 0, run_halted h 0⟩

theorem Ends.count {bound : Option Int} (h : m.Ends bound (.ok k m')) :
    (∀ n ∈ bound, 0 ≤ n → k ≤ n) ∧ m'.steps = m.steps + k := by
  obtain ⟨limit, hrun⟩ := h.bounded
  refine ⟨?_, (run_count hrun).2⟩
  rintro n ⟨⟩ hn
  have hle : k ≤ n.toNat := (run_count h).1
  omega

theorem Commutes.runFrom {c : Io → Io} (hc : Io.Unseen c) (done limit : Nat) :
    Commutes (changeIo c) Nat (runFrom done limit) := by
  induction limit generalizing done with
  | zero => exact pure done
  | succ limit ih =>
    refine look Machine.isHalted (fun _ => rfl) (f := fun halted => if halted = true then
      Pure.pure done else Machine.step >>= fun _ => Machine.runFrom (done + 1) limit) fun _ => ?_
    split
    · exact pure done
    · exact (step hc).bind fun _ => ih (done + 1)

end Micro6502.Machine
