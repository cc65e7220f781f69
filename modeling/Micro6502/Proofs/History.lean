import Mathlib.Data.List.DropRight
import Micro6502.Proofs.Breakpoints
import Micro6502.Proofs.Command

namespace Micro6502

namespace Debugger

/-- Of all snapshots so far the debugger keeps the latest ones, oldest first, and the very last. -/
structure Recalls (limit : Nat) (past : List Snapshot) (d : Debugger) : Prop where
  bounded : d.historyLimit = some limit
  history : d.history.toList = past.rtake limit
  last : d.last = past.getLast?

variable {limit : Nat} {past : List Snapshot} {d : Debugger}

theorem toList_record (h : d.historyLimit = some limit) (s : Snapshot) :
    (d.record s).history.toList = (d.history.toList ++ [s]).rtake limit := by
  simp only [record, h, List.rtake]
  split
  · simp
  · rename_i hle
    have hnone : (d.history.toList ++ [s]).length - limit = 0 := by
      rw [← Array.toList_push, Array.length_toList]
      omega
    rw [hnone]
    simp

/-- What the end of a list forgets does not come back when the list grows. -/
theorem rtake_rtake_concat (past : List Snapshot) (s : Snapshot) (limit : Nat) :
    (past.rtake limit ++ [s]).rtake limit = (past ++ [s]).rtake limit := by
  cases limit with
  | zero => rw [List.rtake_zero, List.rtake_zero]
  | succ n =>
    have hrest : (past.rtake (n + 1)).rtake n = past.rtake n := by
      rw [List.rtake_eq_reverse_take_reverse, List.rtake_eq_reverse_take_reverse,
        List.reverse_reverse, List.take_take, ← List.rtake_eq_reverse_take_reverse]
      simp
    rw [List.rtake_concat_succ, List.rtake_concat_succ, hrest]

namespace Recalls

theorem fresh (limit : Nat) : Recalls limit [] { historyLimit := some limit } :=
  ⟨rfl, (List.rtake_nil limit).symm, rfl⟩

theorem record (h : Recalls limit past d) (s : Snapshot) :
    Recalls limit (past ++ [s]) (d.record s) where
  bounded := h.bounded
  history := by rw [toList_record h.bounded, h.history, rtake_rtake_concat]
  last := by rw [List.getLast?_concat]; rfl

theorem recordAll (h : Recalls limit past d) (snapshots : List Snapshot) :
    Recalls limit (past ++ snapshots) (d.recordAll snapshots) := by
  induction snapshots using List.reverseRecOn with
  | nil => simpa [Debugger.recordAll] using h
  | append_singleton snapshots s ih =>
    rw [recordAll_concat, ← List.append_assoc]
    exact ih.record s

/-- The breakpoints have no say in what is kept. -/
theorem edit (h : Recalls limit past d) (e : Edit) : Recalls limit past (d.edit e) := by
  cases e with
  | add b =>
    simp only [Debugger.edit, add]
    split
    · exact h
    · exact ⟨h.bounded, h.history, h.last⟩
  | update old new => exact ⟨h.bounded, h.history, h.last⟩
  | remove b => exact ⟨h.bounded, h.history, h.last⟩

end Recalls

end Debugger

namespace Machine

variable {m : Machine} {bs : List Breakpoint} {bound : Option Int} {i j k : Nat}

/-- A run under the debugger completes `k` steps: none of the places before has a ground to stop, and
then there is one, or the next step fails. -/
structure Takes (m : Machine) (bs : List Breakpoint) (bound : Option Int) (k : Nat) : Prop where
  goes : m.Goes k
  unended : ∀ i < k, ¬ m.Stops bs bound i
  ends : m.Stops bs bound k ∨ ∃ e, outcome step (m.stepped k) = .error e

theorem Takes.le (h : m.Takes bs bound j) (h' : m.Takes bs bound k) : j ≤ k := by
  by_contra hlt
  rcases h'.ends with hstops | ⟨e, he⟩
  · exact h.unended k (by omega) hstops
  · obtain ⟨s, hs⟩ := h.goes k (by omega)
    cases hs.symm.trans he

theorem Takes.unique (h : m.Takes bs bound j) (h' : m.Takes bs bound k) : j = k :=
  Nat.le_antisymm (h.le h') (h'.le h)

/-- A ground to stop does not go away when the steps are bounded. -/
theorem Stops.bounded (h : m.Stops bs none i) (bound : Option Int) : m.Stops bs bound i := by
  rcases h with h | ⟨n, ⟨⟩, -⟩ | h
  · exact .inl h
  · exact .inr (.inr h)

end Machine

namespace Session

open Debugger (Recalls)

variable {s t : Session} {bound : Option Int} {limit n k : Nat} {past : List Snapshot}

/-- To run at most `limit` steps is to run with the given bound. Without a bound, any number will do
that is not itself what ends the run. -/
def Suffices (s : Session) (bound : Option Int) (limit : Nat) : Prop :=
  match bound with
  | some n => limit = n.toNat
  | none => outcome (run limit) s ≠ .ok .stepLimit

theorem Suffices.unended (h : s.Suffices bound limit) {m : Machine} {bs : List Breakpoint}
    (hnone : m.ending? bs (some (limit : Nat)) k = none) : ¬ m.Stops bs bound k := by
  have hstops := Machine.ending?_eq_none.mp hnone
  cases bound with
  | some n =>
    cases h
    rwa [Machine.ending?_toNat, Machine.ending?_eq_none] at hnone
  | none => exact fun hk => hstops (hk.bounded _)

theorem Suffices.ended (h : s.Suffices bound limit) {m : Machine} {bs : List Breakpoint}
    {reason : StopReason} {hit : Option Breakpoint}
    (hend : m.ending? bs (some (limit : Nat)) k = some (reason, hit))
    (hrun : run limit s = .ok reason t) : m.Stops bs bound k := by
  rw [← Machine.ending?_isSome]
  cases bound with
  | some n =>
    cases h
    rw [← Machine.ending?_toNat, hend]
    rfl
  | none =>
    have hne : reason ≠ .stepLimit := by
      rintro rfl
      exact h (outcome_ok hrun)
    rw [Machine.ending?_of_ne hend hne]
    rfl

/-- A step puts its snapshot on record, if it has one. -/
theorem step_recalls (h : s.debugger.Recalls n past) :
    (after step s).debugger.Recalls n (past ++ s.machine.snapshots 1) := by
  cases hs : Machine.step s.machine with
  | ok snapshot m =>
    have hone : s.machine.snapshots 1 = [snapshot] :=
      Machine.snapshots_succ (k := 0) (outcome_ok hs)
    rw [after_ok (step_ok hs), hone]
    exact h.record snapshot
  | error e m =>
    have hnone : s.machine.snapshots 1 = [] := Machine.snapshots_fail (k := 0) (outcome_error hs)
    rw [after_error (step_error hs), hnone, List.append_nil]
    exact h

/-- A run puts the snapshots of its steps on record, whether it returns or fails. -/
theorem run_recalls (h : s.debugger.Recalls n past) (hlimit : s.Suffices bound limit) :
    ∃ k, s.machine.Takes s.debugger.breakpoints bound k ∧
      (after (run limit) s).debugger.Recalls n (past ++ s.machine.snapshots k) := by
  obtain ⟨k, t, hk, -, hrecord, hends⟩ := run_ends limit s
  have hfresh : s.fresh.debugger.Recalls n past := ⟨h.bounded, h.history, h.last⟩
  have ht : t.debugger.Recalls n (past ++ s.machine.snapshots k) := hrecord ▸ hfresh.recordAll _
  have hgoes : s.machine.Goes k := fun i hi => hk.goes i (Nat.zero_le i) hi
  have hunended (i : Nat) (hi : i < k) := hlimit.unended (hk.unended i (Nat.zero_le i) hi)
  refine ⟨k, ?_⟩
  rcases hends with ⟨reason, hit, hend, hrun⟩ | ⟨-, e, m, hfail, hrun⟩
  · rw [after_ok hrun]
    exact ⟨⟨hgoes, hunended, .inl (hlimit.ended hend hrun)⟩, ⟨ht.bounded, ht.history, ht.last⟩⟩
  · rw [after_error hrun]
    exact ⟨⟨hgoes, hunended, .inr ⟨e, hfail⟩⟩, ht⟩

/-- What a host asks for: a step or a run under the debugger, or in between a change of the
breakpoints or of the machine. -/
inductive Call where
  | step
  | run (bound : Option Int)
  | edit (e : Debugger.Edit)
  | command (c : Command)

namespace Call

/-- The session that a call leaves, whether it returns or fails. A run that goes on for ever leaves
none. -/
def Leaves (s t : Session) : Call → Prop
  | step => t = after Session.step s
  | run bound => ∃ limit, s.Suffices bound limit ∧ t = after (Session.run limit) s
  | edit e => t = { s with debugger := s.debugger.edit e }
  | command c => t = { s with machine := c.perform s.machine }

def Takes (s : Session) (k : Nat) : Call → Prop
  | step => k = 1
  | run bound => s.machine.Takes s.debugger.breakpoints bound k
  | edit _ => k = 0
  | command _ => k = 0

variable {c : Call}

theorem Takes.unique {j : Nat} (h : c.Takes s j) (h' : c.Takes s k) : j = k := by
  cases c with
  | run bound => exact Machine.Takes.unique h h'
  | _ => exact h.trans h'.symm

/-- Every call puts the snapshots of the steps that it takes on record. -/
theorem Leaves.recalls (h : c.Leaves s t) (hs : s.debugger.Recalls n past) :
    ∃ k, c.Takes s k ∧ t.debugger.Recalls n (past ++ s.machine.snapshots k) := by
  have hzero : past ++ s.machine.snapshots 0 = past := List.append_nil past
  cases c with
  | step =>
    cases h
    exact ⟨1, rfl, step_recalls hs⟩
  | run bound =>
    obtain ⟨limit, hlimit, rfl⟩ := h
    exact run_recalls hs hlimit
  | edit e =>
    cases h
    exact ⟨0, rfl, hzero.symm ▸ hs.edit e⟩
  | command c =>
    cases h
    exact ⟨0, rfl, hzero.symm ▸ hs⟩

end Call

inductive Leads : Session → List Call → Session → Prop
  | nil (s : Session) : Leads s [] s
  | cons {s t u : Session} {c : Call} {calls : List Call} (call : c.Leaves s t)
      (rest : Leads t calls u) : Leads s (c :: calls) u

/-- Calls lead from one session to another, and the steps that they take under the debugger produce
these snapshots, oldest first. -/
inductive Produces : Session → List Call → List Snapshot → Session → Prop
  | nil (s : Session) : Produces s [] [] s
  | cons {s t u : Session} {c : Call} {k : Nat} {calls : List Call} {later : List Snapshot}
      (call : c.Leaves s t) (takes : c.Takes s k) (rest : Produces t calls later u) :
      Produces s (c :: calls) (s.machine.snapshots k ++ later) u

variable {calls : List Call}

/-- Calls that end have produced snapshots. -/
theorem Leads.produces (h : Leads s calls t) (hs : s.debugger.Recalls n past) :
    ∃ later, Produces s calls later t := by
  induction h generalizing past with
  | nil s => exact ⟨[], .nil s⟩
  | cons call _ ih =>
    obtain ⟨k, htakes, hnext⟩ := call.recalls hs
    obtain ⟨later, hrest⟩ := ih hnext
    exact ⟨_, .cons call htakes hrest⟩

/-- And the debugger has kept the end of them. -/
theorem Produces.recalls {later : List Snapshot} (h : Produces s calls later t)
    (hs : s.debugger.Recalls n past) : t.debugger.Recalls n (past ++ later) := by
  induction h generalizing past with
  | nil s => exact (List.append_nil past).symm ▸ hs
  | cons call takes _ ih =>
    obtain ⟨k, htakes, hnext⟩ := call.recalls hs
    obtain rfl := htakes.unique takes
    rw [← List.append_assoc]
    exact ih hnext

/-- Whatever is asked of a debugger that keeps `n` snapshots at most, it has kept the last `n` of all
the snapshots that its steps have produced so far, oldest first, or all of them if they are fewer,
and besides the very last one. A step that fails does nothing to it. -/
theorem history_recent (m : Machine) (n : Nat) :
    ∃ d, Debugger.withHistory (some n) = .ok d ∧
      ∀ calls t, Leads ⟨m, d⟩ calls t →
        (∃ past, Produces ⟨m, d⟩ calls past t) ∧
        (∀ past, Produces ⟨m, d⟩ calls past t →
          t.debugger.history.toList = past.rtake n ∧
          t.debugger.history.size = min n past.length ∧
          t.debugger.last = past.getLast?) ∧
        ∀ e, outcome step t = .error e → (after step t).debugger = t.debugger := by
  refine ⟨{ historyLimit := some n }, ?_, fun calls t h =>
    ⟨?_, fun past hpast => ?_, fun e he => ?_⟩⟩
  · have hnonneg : ¬ (n : Int) < 0 := by omega
    simp [Debugger.withHistory, hnonneg]
  · exact h.produces (Recalls.fresh n)
  · have hrecalls := hpast.recalls (Recalls.fresh n)
    rw [List.nil_append] at hrecalls
    refine ⟨hrecalls.history, ?_, hrecalls.last⟩
    rw [← Array.length_toList, hrecalls.history, List.rtake, List.length_drop]
    omega
  · cases hs : Machine.step t.machine with
    | ok snapshot m' => cases (outcome_ok (step_ok hs)).symm.trans he
    | error e' m' => rw [after_error (step_error hs)]

/-- A step, a run to a breakpoint and a run into a byte that is no opcode: of the four snapshots two
are kept. -/
theorem history_recent_stumbling :
    let program : Ram := ⟨#[0xEA, 0xEA, 0xEA, 0xEA, 0xFF]⟩
    let m : Machine := { memory := { bus := { mappings := [⟨0x0600, 0x0604, .ram program⟩] } } }
    let b : Breakpoint := { condition := .pcMatch, value := some 0x0602 }
    let calls : List Call := [.step, .edit (.add b), .run (some 5), .run none]
    ∃ d t past, Debugger.withHistory (some 2) = .ok d ∧ Leads ⟨m, d⟩ calls t ∧
      Produces ⟨m, d⟩ calls past t ∧ t.debugger.history.toList = past.rtake 2 ∧
      t.debugger.history.toList.map (·.steps) = [3, 4] ∧ t.machine.isHalted = true := by
  intro program m b calls
  obtain ⟨d, hd, hrecent⟩ := history_recent m 2
  cases hd
  let s₁ : Session := after step ⟨m, { historyLimit := some 2 }⟩
  let s₂ : Session := { s₁ with debugger := s₁.debugger.add b }
  let s₃ : Session := after (run 5) s₂
  let t : Session := after (run 9) s₃
  have hends : ((outcome (run 9) s₃).toOption = none ∧ t.machine.isHalted = true) ∧
      t.debugger.history.toList.map (·.steps) = [3, 4] := by
    decide +kernel
  obtain ⟨⟨hfails, hhalted⟩, hsteps⟩ := hends
  have hsuffices : s₃.Suffices none 9 := by
    intro hrun
    rw [hrun] at hfails
    cases hfails
  have hleads : Leads ⟨m, { historyLimit := some 2 }⟩ calls t :=
    .cons rfl (.cons rfl (.cons ⟨5, rfl, rfl⟩ (.cons ⟨9, hsuffices, rfl⟩ (.nil t))))
  obtain ⟨⟨past, hpast⟩, hkept, -⟩ := hrecent calls t hleads
  exact ⟨_, t, past, rfl, hleads, hpast, (hkept past hpast).1, hsteps, hhalted⟩

end Session

end Micro6502
