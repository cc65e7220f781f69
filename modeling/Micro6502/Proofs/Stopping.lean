import Mathlib.Data.Nat.Find
import Mathlib.Order.Bounds.Defs
import Mathlib.Tactic.SplitIfs
import Micro6502.Debugger
import Micro6502.Proofs.Run

namespace Micro6502

/-- The parts of a state under their names; flags count as zero and one. -/
inductive CpuState.HasPart (s : CpuState) : String → Int → Prop where
  | pc : s.HasPart "pc" s.pc
  | sp : s.HasPart "sp" s.sp
  | a : s.HasPart "a" s.a
  | x : s.HasPart "x" s.x
  | y : s.HasPart "y" s.y
  | carry : s.HasPart "flag_c" s.carry.toNat
  | negative : s.HasPart "flag_n" s.negative.toNat
  | zero : s.HasPart "flag_z" s.zero.toNat
  | stackAddress : s.HasPart "stack_address" (0x0100 + s.sp % 0x100)

namespace CpuState

variable {s : CpuState} {part : String} {n : Int}

theorem hasPart_of_part? (h : s.part? part = some n) : s.HasPart part n := by
  have hbit (b : Bool) : (if b then 1 else 0 : Int) = b.toNat := by cases b <;> rfl
  unfold part? at h
  simp only [hbit] at h
  split at h <;> cases h
  exacts [.pc, .sp, .a, .x, .y, .carry, .negative, .zero, .stackAddress]

theorem part?_of_hasPart (h : s.HasPart part n) : s.part? part = some n := by
  obtain ⟨pc, sp, a, x, y, carry, negative, zero⟩ := s
  cases h with
  | carry => cases carry <;> rfl
  | negative => cases negative <;> rfl
  | zero => cases zero <;> rfl
  | _ => rfl

theorem part?_eq_some : s.part? part = some n ↔ s.HasPart part n :=
  ⟨hasPart_of_part?, part?_of_hasPart⟩

end CpuState

namespace Breakpoint

/-- An enabled breakpoint waits for this value of the counter. -/
def Awaits (b : Breakpoint) (pc : Int) : Prop :=
  b.enabled = true ∧ b.condition = .pcMatch ∧ b.value = some pc

/-- What an enabled breakpoint of another kind waits for holds of a step from the state `before`. -/
def Holds (b : Breakpoint) (before : CpuState) (s : Snapshot) : Prop :=
  b.enabled = true ∧
    ((b.condition = .memoryRead ∧ ∃ a ∈ s.accesses, a.kind = .read ∧ b.address = some a.address) ∨
    (b.condition = .memoryWrite ∧ ∃ a ∈ s.accesses, a.kind = .write ∧ b.address = some a.address) ∨
    (b.condition = .registerValue ∧
      ∃ part n, b.part = some part ∧ b.value = some n ∧ s.state.HasPart part n) ∨
    (b.condition = .registerChange ∧
      ∃ part n, b.part = some part ∧ s.state.HasPart part n ∧ ¬ before.HasPart part n))

theorem hitsBefore_iff (b : Breakpoint) (pc : Int) : b.hitsBefore pc = true ↔ b.Awaits pc := by
  simp [hitsBefore, Awaits, and_assoc]

theorem hitsAfter_iff (b : Breakpoint) (before : CpuState) (s : Snapshot) :
    b.hitsAfter before s = true ↔ b.Holds before s := by
  obtain ⟨condition, value, address, part, enabled⟩ := b
  simp only [Holds, ← CpuState.part?_eq_some]
  cases condition with
  | pcMatch => simp [hitsAfter]
  | memoryRead => simp [hitsAfter, @eq_comm _ address]
  | memoryWrite => simp [hitsAfter, @eq_comm _ address]
  | registerValue =>
    cases part with
    | none => simp [hitsAfter]
    | some part => cases hn : s.state.part? part <;> simp [hitsAfter, hn, and_comm]
  | registerChange =>
    cases part with
    | none => simp [hitsAfter]
    | some part => cases hn : s.state.part? part <;> simp [hitsAfter, hn]

instance (b : Breakpoint) (pc : Int) : Decidable (b.Awaits pc) :=
  decidable_of_iff _ (b.hitsBefore_iff pc)

instance (b : Breakpoint) (before : CpuState) (s : Snapshot) : Decidable (b.Holds before s) :=
  decidable_of_iff _ (b.hitsAfter_iff before s)

theorem hitsBefore_eq (b : Breakpoint) (pc : Int) : b.hitsBefore pc = decide (b.Awaits pc) :=
  Bool.eq_iff_iff.mpr ((b.hitsBefore_iff pc).trans decide_eq_true_iff.symm)

theorem hitsAfter_eq (b : Breakpoint) (before : CpuState) (s : Snapshot) :
    b.hitsAfter before s = decide (b.Holds before s) :=
  Bool.eq_iff_iff.mpr ((b.hitsAfter_iff before s).trans decide_eq_true_iff.symm)

end Breakpoint

namespace Machine

variable {m : Machine} {i k : Nat}

/-- The first breakpoint that holds of step `i`; the steps count from one. -/
def hitAt (m : Machine) (bs : List Breakpoint) : Nat → Option Breakpoint
  | 0 => none
  | i + 1 => match outcome step (m.stepped i) with
    | .ok s => bs.find? (fun b => b.Holds (m.stepped i).state s)
    | .error _ => none

def askedAt (m : Machine) : Nat → Bool
  | 0 => false
  | i + 1 => (m.stepped i).asks

def heldAt (m : Machine) (bs : List Breakpoint) : Nat → Option Breakpoint
  | 0 => none
  | i + 1 => bs.find? (fun b => b.Awaits (m.stepped (i + 1)).memory.pc)

def Stops (m : Machine) (bs : List Breakpoint) (bound : Option Int) (i : Nat) : Prop :=
  (m.stepped i).isHalted = true ∨ (∃ n ∈ bound, n ≤ i) ∨ (m.heldAt bs i).isSome = true ∨
    (m.hitAt bs i).isSome = true ∨ m.askedAt i = true

/-- What a run says that stops after `i` steps: the first ground counts. -/
def ending? (m : Machine) (bs : List Breakpoint) (bound : Option Int) (i : Nat) :
    Option (StopReason × Option Breakpoint) :=
  let pc := (m.stepped i).memory.pc
  match m.hitAt bs i with
  | some b => some (.breakpoint pc, some b)
  | none =>
    if m.askedAt i then some (.stopped, none)
    else if (m.stepped i).isHalted then some (.halted, none)
    else if bound.any (· ≤ (i : Int)) then some (.stepLimit, none)
    else (m.heldAt bs i).map fun b => (.breakpoint pc, some b)

variable {bs : List Breakpoint} {bound : Option Int}

theorem hitAt_succ {s : Snapshot} (bs : List Breakpoint)
    (hs : outcome step (m.stepped i) = .ok s) :
    m.hitAt bs (i + 1) = bs.find? (·.hitsAfter (m.stepped i).state s) := by
  simp [hitAt, hs, Breakpoint.hitsAfter_eq]

/-- A running machine has no ground to stop before its first step but a bound. -/
theorem not_stops_zero (bs : List Breakpoint) (h : m.isHalted = false) : ¬ m.Stops bs none 0 := by
  simp [Stops, heldAt, hitAt, askedAt, h]

theorem ending?_isSome : (m.ending? bs bound i).isSome = true ↔ m.Stops bs bound i := by
  have hany : bound.any (· ≤ (i : Int)) = true ↔ ∃ n ∈ bound, n ≤ (i : Int) := by
    cases bound <;> simp
  unfold ending? Stops
  rw [← hany]
  cases m.hitAt bs i with
  | some b => simp
  | none => split_ifs <;> simp [*]

theorem ending?_eq_none : m.ending? bs bound i = none ↔ ¬ m.Stops bs bound i := by
  rw [← ending?_isSome]
  cases m.ending? bs bound i <;> simp

theorem ending?_congr {bound' : Option Int}
    (h : bound.any (· ≤ (i : Int)) = bound'.any (· ≤ (i : Int))) :
    m.ending? bs bound i = m.ending? bs bound' i := by
  simp only [ending?, h]

/-- A negative bound is as good as zero. -/
theorem ending?_toNat (m : Machine) (bs : List Breakpoint) (n : Int) (i : Nat) :
    m.ending? bs (some (n.toNat : Nat)) i = m.ending? bs (some n) i := by
  have hle : ((n.toNat : Nat) : Int) ≤ i ↔ n ≤ i := by omega
  exact ending?_congr (by simp only [Option.any_some, hle])

/-- A bound that is not yet reached has no say. -/
theorem ending?_lt {n : Int} (h : (i : Int) < n) :
    m.ending? bs (some n) i = m.ending? bs none i := by
  have hn : ¬ n ≤ (i : Int) := by omega
  exact ending?_congr (by simp [hn])

/-- Nor has it where a run stops on another ground. -/
theorem ending?_of_ne {answer : StopReason × Option Breakpoint}
    (h : m.ending? bs bound i = some answer) (hne : answer.1 ≠ .stepLimit) :
    m.ending? bs none i = some answer := by
  unfold ending? at h ⊢
  cases hhit : m.hitAt bs i with
  | some b => simpa [hhit] using h
  | none =>
    simp only [hhit] at h ⊢
    split_ifs at h with hasked hhalted hbound
    · rwa [if_pos hasked]
    · rwa [if_neg hasked, if_pos hhalted]
    · cases h
      exact absurd rfl hne
    · rwa [if_neg hasked, if_neg hhalted, if_neg (by simp)]

theorem ending?_ne {answer : StopReason × Option Breakpoint}
    (h : m.ending? bs none i = some answer) : answer.1 ≠ .stepLimit := by
  unfold ending? at h
  cases hhit : m.hitAt bs i with
  | some b =>
    simp only [hhit] at h
    cases h
    simp
  | none =>
    simp only [hhit] at h
    split_ifs at h
    · cases h
      simp
    · cases h
      simp
    · simp_all
    · obtain ⟨b, -, rfl⟩ := Option.map_eq_some_iff.mp h
      simp

end Machine

def Debugger.recordAll (d : Debugger) (snapshots : List Snapshot) : Debugger :=
  snapshots.foldl record d

theorem Debugger.recordAll_concat (d : Debugger) (snapshots : List Snapshot) (s : Snapshot) :
    d.recordAll (snapshots ++ [s]) = (d.recordAll snapshots).record s := by
  rw [recordAll, List.foldl_append]
  rfl

namespace Session

variable {s t : Session} {m : Machine} {bs : List Breakpoint} {i limit : Nat} {n : Int}
  {reason : StopReason}

def endedBy (s : Session) (hit : Option Breakpoint) : Session :=
  { s with debugger := { s.debugger with lastHit := hit } }

theorem step_ok {snapshot : Snapshot} {m' : Machine}
    (h : Machine.step s.machine = .ok snapshot m') :
    step s = .ok snapshot ⟨m', s.debugger.record snapshot⟩ := by
  have hm : onMachine Machine.step s = .ok snapshot ⟨m', s.debugger⟩ := by simp [onMachine, h]
  rw [step, bind_ok hm]
  rfl

theorem step_error {e : Fault} {m' : Machine} (h : Machine.step s.machine = .error e m') :
    step s = .error e ⟨m', s.debugger⟩ := by
  have hm : onMachine Machine.step s = .error e ⟨m', s.debugger⟩ := by simp [onMachine, h]
  rw [step, bind_error hm]

/-- What a run does once it has executed an instruction on which `hit` holds. -/
def goOn (hit : Option Breakpoint) (resumed : Bool) (limit : Nat) : SessionM StopReason := do
  match hit with
  | some b => stopAt b (← get).machine.memory.pc
  | none => runOn resumed limit

/-- What a run has come to after `i` steps of the machine `m`, if nothing has stopped it before. -/
structure Reached (m : Machine) (bs : List Breakpoint) (i : Nat) (s : Session) : Prop where
  machine : s.machine.calm = (m.stepped i).calm
  request : s.machine.requested = m.askedAt i
  breakpoints : s.debugger.breakpoints = bs
  lastHit : s.debugger.lastHit = none

theorem Reached.state (h : Reached m bs i s) : s.machine.state = (m.stepped i).state := by
  rw [← Machine.calm_state, h.machine, Machine.calm_state]

theorem Reached.pc (h : Reached m bs i s) : s.machine.memory.pc = (m.stepped i).memory.pc :=
  congrArg CpuState.pc h.state

theorem Reached.isHalted (h : Reached m bs i s) :
    s.machine.isHalted = (m.stepped i).isHalted := by
  rw [← Machine.calm_isHalted, h.machine, Machine.calm_isHalted]

theorem Reached.endedBy (h : Reached m bs i s) : s.endedBy none = s := by
  obtain ⟨machine, debugger⟩ := s
  rw [Session.endedBy, ← h.lastHit]

theorem Reached.held (h : Reached m bs i s) :
    (if decide (0 < i) then s.debugger.hitBefore? s.machine.memory.pc else none) =
      m.heldAt bs i := by
  cases i with
  | zero => rfl
  | succ i =>
    simp [Debugger.hitBefore?, Machine.heldAt, h.breakpoints, h.pc, Breakpoint.hitsBefore_eq]

/-- Where nobody has asked to stop, the machine is the one that plain steps lead to. -/
theorem Reached.quiet (h : Reached m bs i s) (hq : m.askedAt i = false) :
    s.machine = (m.stepped i).calm :=
  (Machine.calm_eq (h.request.trans hq)).symm.trans h.machine

theorem Reached.step {snapshot : Snapshot} {m' : Machine} (h : Reached m bs i s)
    (hq : m.askedAt i = false) (hs : Machine.step s.machine = .ok snapshot m') :
    outcome Machine.step (m.stepped i) = .ok snapshot ∧
      Reached m bs (i + 1) ⟨m', s.debugger.record snapshot⟩ := by
  rw [h.quiet hq] at hs
  refine ⟨(Machine.outcome_step_calm _).symm.trans (outcome_ok hs), ?_, ?_, h.breakpoints,
    h.lastHit⟩
  · rw [Machine.stepped_succ, Machine.calm_after_step, after_ok hs]
  · exact congrArg Machine.requested (after_ok hs).symm

theorem goOn_none {resumed : Bool} : goOn none resumed limit s = runOn resumed limit s := rfl

/-- A run looks for a request to stop first, then for the end of the program. -/
theorem runOn_stopped (h : s.stopRequested = true) (resumed : Bool) (limit : Nat) :
    runOn resumed limit s = .ok .stopped s := by
  cases limit <;> simp only [runOn] <;> rw [bind_ok (get_ok s), if_pos h] <;> rfl

theorem runOn_halted (h : s.stopRequested = false) (hh : s.machine.isHalted = true)
    (resumed : Bool) (limit : Nat) : runOn resumed limit s = .ok .halted s := by
  cases limit <;> simp only [runOn] <;>
    rw [bind_ok (get_ok s), if_neg (by simp [h]), if_pos hh] <;> rfl

theorem runOn_zero (h : s.stopRequested = false) (hh : s.machine.isHalted = false)
    (resumed : Bool) : runOn resumed 0 s = .ok .stepLimit s := by
  rw [runOn, bind_ok (get_ok s), if_neg (by simp [h]), if_neg (by simp [hh])]
  rfl

theorem runOn_held (h : s.stopRequested = false) (hh : s.machine.isHalted = false)
    {resumed : Bool} {b : Breakpoint}
    (hb : (if resumed then s.debugger.hitBefore? s.machine.memory.pc else none) = some b)
    (limit : Nat) :
    runOn resumed (limit + 1) s =
      .ok (.breakpoint s.machine.memory.pc) (s.endedBy (some b)) := by
  have hb' : (if resumed = true then s.debugger.hitBefore? s.machine.state.pc else none) = some b :=
    hb
  rw [runOn, bind_ok (get_ok s), if_neg (by simp [h]), if_neg (by simp [hh])]
  generalize (if resumed = true then s.debugger.hitBefore? s.machine.state.pc else none) = hit
    at hb' ⊢
  subst hb'
  rfl

theorem runOn_step (h : s.stopRequested = false) (hh : s.machine.isHalted = false)
    {resumed : Bool}
    (hb : (if resumed then s.debugger.hitBefore? s.machine.memory.pc else none) = none)
    (limit : Nat) :
    runOn resumed (limit + 1) s = (step >>= fun snapshot => do
      match (← get).debugger.hitAfter? s.machine.state snapshot with
      | some b => stopAt b snapshot.state.pc
      | none => runOn true limit) s := by
  have hb' : (if resumed = true then s.debugger.hitBefore? s.machine.state.pc else none) = none :=
    hb
  rw [runOn, bind_ok (get_ok s), if_neg (by simp [h]), if_neg (by simp [hh])]
  generalize (if resumed = true then s.debugger.hitBefore? s.machine.state.pc else none) = hit
    at hb' ⊢
  subst hb'
  rfl

/-- At a place with a ground to stop the run ends, and says so. -/
theorem goOn_ending {hit : Option Breakpoint} (h : Reached m bs i s) (hn : n = i + limit)
    (he : m.ending? bs (some n) i = some (reason, hit)) :
    goOn (m.hitAt bs i) (decide (0 < i)) limit s = .ok reason (s.endedBy hit) := by
  have hstop : s.stopRequested = m.askedAt i := h.request
  have hhalt := h.isHalted
  unfold Machine.ending? at he
  cases hhit : m.hitAt bs i with
  | some b =>
    rw [hhit] at he
    cases he
    rw [← h.pc]
    rfl
  | none =>
    simp only [hhit] at he
    rw [goOn_none]
    split_ifs at he with hasked hhalted hbound
    · cases he
      rw [runOn_stopped (hstop.trans hasked), h.endedBy]
    · cases he
      rw [runOn_halted (by simp [hstop, hasked]) (hhalt.trans hhalted), h.endedBy]
    · cases he
      have hlimit : limit = 0 := by simp at hbound; omega
      rw [hlimit, runOn_zero (by simp [hstop, hasked]) (by simp [hhalt, hhalted]), h.endedBy]
    · obtain ⟨b, hb, he⟩ := Option.map_eq_some_iff.mp he
      cases he
      obtain ⟨limit, rfl⟩ : ∃ l, limit = l + 1 := ⟨limit - 1, by simp at hbound; omega⟩
      rw [runOn_held (by simp [hstop, hasked]) (by simp [hhalt, hhalted]) (h.held.trans hb), h.pc]

/-- At a place without one it executes an instruction and looks again. -/
theorem goOn_step (h : Reached m bs i s) (hn : n = i + limit)
    (he : m.ending? bs (some n) i = none) :
    ∃ rest, limit = rest + 1 ∧
      ((∃ e machine, outcome Machine.step (m.stepped i) = .error e ∧
        goOn (m.hitAt bs i) (decide (0 < i)) limit s = .error e ⟨machine, s.debugger⟩) ∨
      ∃ snapshot machine, outcome Machine.step (m.stepped i) = .ok snapshot ∧
        Reached m bs (i + 1) ⟨machine, s.debugger.record snapshot⟩ ∧
        goOn (m.hitAt bs i) (decide (0 < i)) limit s =
          goOn (m.hitAt bs (i + 1)) true rest ⟨machine, s.debugger.record snapshot⟩) := by
  have hstop : s.stopRequested = m.askedAt i := h.request
  have hhalt := h.isHalted
  unfold Machine.ending? at he
  cases hhit : m.hitAt bs i with
  | some b => simp [hhit] at he
  | none =>
    simp only [hhit] at he
    rw [goOn_none]
    split_ifs at he with hasked hhalted hbound
    have hheld : m.heldAt bs i = none := by simpa using he
    obtain ⟨rest, rfl⟩ : ∃ l, limit = l + 1 := ⟨limit - 1, by simp at hbound; omega⟩
    have hasked : m.askedAt i = false := by simpa using hasked
    refine ⟨rest, rfl, ?_⟩
    rw [runOn_step (hstop.trans hasked) (by simp [hhalt, hhalted]) (h.held.trans hheld)]
    cases hs : Machine.step s.machine with
    | error e m' =>
      refine .inl ⟨e, m', ?_, bind_error (step_error hs)⟩
      rw [← Machine.outcome_step_calm, ← h.quiet hasked, outcome_error hs]
    | ok snapshot m' =>
      obtain ⟨hsnapshot, hreached⟩ := h.step hasked hs
      refine .inr ⟨snapshot, _, hsnapshot, hreached, ?_⟩
      have hhit' : (s.debugger.record snapshot).hitAfter? s.machine.state snapshot =
          m.hitAt bs (i + 1) := by
        have hbs : (s.debugger.record snapshot).breakpoints = bs := hreached.breakpoints
        simp [Debugger.hitAfter?, Machine.hitAt_succ _ hsnapshot, hbs, h.state]
      rw [bind_ok (step_ok hs), bind_ok (get_ok _), hhit', Machine.step_state hs]
      cases m.hitAt bs (i + 1) <;> rfl

/-- From `i` steps on the run meets no ground to stop and no failure before it has come to `k`. -/
structure ComesTo (m : Machine) (bs : List Breakpoint) (bound : Option Int) (i k : Nat) : Prop where
  le : i ≤ k
  unended : ∀ j, i ≤ j → j < k → m.ending? bs bound j = none
  goes : ∀ j, i ≤ j → j < k → ∃ snapshot, outcome Machine.step (m.stepped j) = .ok snapshot

/-- Short of its end a run comes to every place before. -/
theorem ComesTo.init {bound : Option Int} {k : Nat} (h : ComesTo m bs bound i (k + 1))
    (hik : i ≤ k) : ComesTo m bs bound i k :=
  ⟨hik, fun j hj hk => h.unended j hj (Nat.lt_succ_of_lt hk),
    fun j hj hk => h.goes j hj (Nat.lt_succ_of_lt hk)⟩

/-- A bounded run comes to a ground to stop or to a step that fails. -/
theorem exists_comesTo (m : Machine) (bs : List Breakpoint) (limit : Nat) :
    ∃ k, ComesTo m bs (some (limit : Nat)) 0 k ∧
      ((m.ending? bs (some (limit : Nat)) k).isSome = true ∨
        ∃ e, outcome Machine.step (m.stepped k) = .error e) := by
  classical
  have hend : ∃ k, (m.ending? bs (some (limit : Nat)) k).isSome = true ∨
      ∃ e, outcome Machine.step (m.stepped k) = .error e :=
    ⟨limit, .inl (Machine.ending?_isSome.mpr (.inr (.inl ⟨limit, rfl, Int.le_refl _⟩)))⟩
  refine ⟨Nat.find hend, ⟨Nat.zero_le _, fun j _ hj => ?_, fun j _ hj => ?_⟩, Nat.find_spec hend⟩
  · have hj := not_or.mp (Nat.find_min hend hj)
    simpa using hj.1
  · have hj := not_or.mp (Nat.find_min hend hj)
    cases hs : outcome Machine.step (m.stepped j) with
    | ok snapshot => exact ⟨snapshot, rfl⟩
    | error e => exact absurd ⟨e, hs⟩ hj.2

/-- A run with the given bound returns. One without a bound does so if some number of instructions
is enough for it to stop on another ground. -/
def Returns (bound : Option Int) (s : Session) (reason : StopReason) (t : Session) : Prop :=
  match bound with
  | some n => run n.toNat s = .ok reason t
  | none => reason ≠ .stepLimit ∧ ∃ limit, run limit s = .ok reason t

def fresh (s : Session) : Session := ⟨s.machine.calm, { s.debugger with lastHit := none }⟩

theorem run_eq (limit : Nat) (s : Session) :
    run limit s =
      goOn (s.machine.hitAt s.debugger.breakpoints 0) (decide (0 < 0)) limit s.fresh := rfl

theorem reached_fresh (s : Session) : Reached s.machine s.debugger.breakpoints 0 s.fresh :=
  ⟨s.machine.calm_calm, s.machine.requested_calm, rfl, rfl⟩

/-- A run goes on from the place that it has come to, with the snapshots of its steps on record. -/
theorem run_comesTo {k : Nat}
    (hk : ComesTo s.machine s.debugger.breakpoints (some (limit : Nat)) 0 k) :
    ∃ rest t, ((limit : Nat) : Int) = (k : Int) + (rest : Nat) ∧
      Reached s.machine s.debugger.breakpoints k t ∧
      t.debugger = s.fresh.debugger.recordAll (s.machine.snapshots k) ∧
      run limit s =
        goOn (s.machine.hitAt s.debugger.breakpoints k) (decide (0 < k)) rest t := by
  induction k with
  | zero => exact ⟨limit, s.fresh, by simp, reached_fresh s, rfl, run_eq limit s⟩
  | succ k ih =>
    obtain ⟨rest, t, hlimit, ht, hrecord, hrun⟩ := ih (hk.init (Nat.zero_le k))
    obtain ⟨snapshot, hgo⟩ := hk.goes k (Nat.zero_le k) (Nat.lt_succ_self k)
    obtain ⟨rest, rfl, ⟨e, machine, hfail, -⟩ | ⟨snapshot', machine, hgo', ht', hstep⟩⟩ :=
      goOn_step ht hlimit (hk.unended k (Nat.zero_le k) (Nat.lt_succ_self k))
    · simp [hfail] at hgo
    · refine ⟨rest, _, by omega, ht', ?_, by simpa using hrun.trans hstep⟩
      rw [Machine.snapshots_succ hgo', Debugger.recordAll_concat, ← hrecord]

variable {bound : Option Int}

/-- A bounded run ends, with a ground to stop or with a step that fails. -/
theorem run_ends (limit : Nat) (s : Session) :
    let m := s.machine
    let bs := s.debugger.breakpoints
    ∃ k t, ComesTo m bs (some (limit : Nat)) 0 k ∧ Reached m bs k t ∧
      t.debugger = s.fresh.debugger.recordAll (m.snapshots k) ∧
      ((∃ reason hit, m.ending? bs (some (limit : Nat)) k = some (reason, hit) ∧
        run limit s = .ok reason (t.endedBy hit)) ∨
      (m.ending? bs (some (limit : Nat)) k = none ∧ ∃ e machine,
        outcome Machine.step (m.stepped k) = .error e ∧
        run limit s = .error e ⟨machine, t.debugger⟩)) := by
  intro m bs
  obtain ⟨k, hk, hend⟩ := exists_comesTo m bs limit
  obtain ⟨rest, t, hlimit, ht, hrecord, hrun⟩ := run_comesTo hk
  refine ⟨k, t, hk, ht, hrecord, ?_⟩
  cases he : m.ending? bs (some (limit : Nat)) k with
  | some answer => exact .inl ⟨answer.1, answer.2, rfl, hrun.trans (goOn_ending ht hlimit he)⟩
  | none =>
    obtain ⟨e, hfail⟩ : ∃ e, outcome Machine.step (m.stepped k) = .error e := by
      simpa [he] using hend
    obtain ⟨rest, rfl, ⟨e', machine, hfail', hstep⟩ | ⟨snapshot, machine, hgo, -⟩⟩ :=
      goOn_step ht hlimit he
    · exact .inr ⟨rfl, e', machine, hfail', hrun.trans hstep⟩
    · cases hfail.symm.trans hgo

/-- What a run with a bound leaves when it returns. -/
theorem run_ok (hrun : run limit s = .ok reason t) :
    ∃ k, ComesTo s.machine s.debugger.breakpoints (some (limit : Nat)) 0 k ∧
      s.machine.ending? s.debugger.breakpoints (some (limit : Nat)) k =
        some (reason, t.debugger.lastHit) ∧
      t.machine.calm = (s.machine.stepped k).calm := by
  obtain ⟨k, u, hk, hu, -, ⟨reason', hit, he, hgo⟩ | ⟨-, e, machine, -, hgo⟩⟩ := run_ends limit s
  · cases hgo.symm.trans hrun
    exact ⟨k, hk, he, hu.machine⟩
  · cases hgo.symm.trans hrun

/-- A run that can come to a ground to stop returns. -/
theorem run_returns (limit : Nat) {k : Nat} {answer : StopReason × Option Breakpoint}
    (hk : ComesTo s.machine s.debugger.breakpoints (some (limit : Nat)) 0 k)
    (hend : s.machine.ending? s.debugger.breakpoints (some (limit : Nat)) k = some answer) :
    ∃ t, run limit s = .ok answer.1 t := by
  obtain ⟨rest, t, hlimit, ht, -, hrun⟩ := run_comesTo hk
  exact ⟨_, hrun.trans (goOn_ending ht hlimit hend)⟩

theorem ComesTo.congr {bound' : Option Int} {k : Nat} (h : ComesTo m bs bound i k)
    (hsame : ∀ j < k, m.ending? bs bound j = none → m.ending? bs bound' j = none) :
    ComesTo m bs bound' i k :=
  ⟨h.le, fun j hj hk => hsame j hk (h.unended j hj hk), h.goes⟩

/-- A run that returns stops at the first ground to stop, whether it is bounded or not. -/
theorem Returns.comesTo (h : s.Returns bound reason t) :
    ∃ k, ComesTo s.machine s.debugger.breakpoints bound 0 k ∧
      s.machine.ending? s.debugger.breakpoints bound k = some (reason, t.debugger.lastHit) ∧
      t.machine.calm = (s.machine.stepped k).calm := by
  cases bound with
  | some n =>
    obtain ⟨k, hk, hend, hmachine⟩ := run_ok h
    rw [Machine.ending?_toNat] at hend
    exact ⟨k, hk.congr fun j _ hj => by rwa [← Machine.ending?_toNat], hend, hmachine⟩
  | none =>
    obtain ⟨hne, limit, hrun⟩ := h
    obtain ⟨k, hk, hend, hmachine⟩ := run_ok hrun
    refine ⟨k, hk.congr fun j _ hj => ?_, Machine.ending?_of_ne hend hne, hmachine⟩
    -- the bound itself is a ground to stop, so the places before the first one lie below it
    have hlt : (j : Int) < (limit : Nat) := by
      by_contra hle
      exact Machine.ending?_eq_none.mp hj (.inr (.inl ⟨limit, rfl, by omega⟩))
    rwa [← Machine.ending?_lt hlt]

theorem returns_of_comesTo {k : Nat} {answer : StopReason × Option Breakpoint}
    (hk : ComesTo s.machine s.debugger.breakpoints bound 0 k)
    (hend : s.machine.ending? s.debugger.breakpoints bound k = some answer) :
    ∃ t, s.Returns bound answer.1 t := by
  cases bound with
  | some n =>
    exact run_returns n.toNat (hk.congr fun j _ hj => by rwa [Machine.ending?_toNat])
      (by rwa [Machine.ending?_toNat])
  | none =>
    -- one instruction more than the run takes, so that the bound is not what stops it
    have hbound (j : Nat) (hj : j ≤ k) : (j : Int) < ((k + 1 : Nat) : Int) := by omega
    obtain ⟨t, hrun⟩ := run_returns (k + 1)
      (hk.congr fun j hj hnone => by rwa [Machine.ending?_lt (hbound j (by omega))])
      (by rwa [Machine.ending?_lt (hbound k (Nat.le_refl k))])
    exact ⟨t, Machine.ending?_ne hend, k + 1, hrun⟩

/-- A run comes to one place only where it stops. -/
theorem ComesTo.unique {k : Nat} (h : ComesTo m bs bound 0 i) (hi : m.ending? bs bound i ≠ none)
    (h' : ComesTo m bs bound 0 k) (hk : m.ending? bs bound k ≠ none) : i = k := by
  rcases Nat.lt_trichotomy i k with hlt | rfl | hlt
  · exact absurd (h'.unended i (Nat.zero_le i) hlt) hi
  · rfl
  · exact absurd (h.unended k (Nat.zero_le k) hlt) hk

/-- A run stops right after an instruction on which a breakpoint holds. -/
theorem returns_after {snapshot : Snapshot} {b : Breakpoint}
    (hstep : outcome Machine.step (s.machine.stepped i) = .ok snapshot)
    (hb : b ∈ s.debugger.breakpoints)
    (hhit : b.hitsAfter (s.machine.stepped i).state snapshot = true) (hgo : s.machine.Goes i)
    (hfree : ∀ j ≤ i, ¬ s.machine.Stops s.debugger.breakpoints bound j) :
    ∃ t, s.Returns bound (.breakpoint (s.machine.stepped (i + 1)).memory.pc) t ∧
      t.machine.calm = (s.machine.stepped (i + 1)).calm ∧
      t.debugger.lastHit = s.machine.hitAt s.debugger.breakpoints (i + 1) ∧
      t.debugger.lastHit.isSome = true := by
  have hfind := Machine.hitAt_succ s.debugger.breakpoints hstep
  have hsome : (s.debugger.breakpoints.find?
      (·.hitsAfter (s.machine.stepped i).state snapshot)).isSome = true :=
    List.find?_isSome.mpr ⟨b, hb, hhit⟩
  obtain ⟨first, hfirst⟩ := Option.isSome_iff_exists.mp hsome
  have hend : s.machine.ending? s.debugger.breakpoints bound (i + 1) =
      some (.breakpoint (s.machine.stepped (i + 1)).memory.pc, some first) := by
    rw [Machine.ending?, hfind, hfirst]
  have hcomes : ComesTo s.machine s.debugger.breakpoints bound 0 (i + 1) := by
    refine ⟨Nat.zero_le _, fun j _ hj => Machine.ending?_eq_none.mpr (hfree j (by omega)),
      fun j _ hj => ?_⟩
    rcases Nat.lt_succ_iff_lt_or_eq.mp hj with hj | rfl
    · exact hgo j hj
    · exact ⟨snapshot, hstep⟩
  obtain ⟨t, ht⟩ := returns_of_comesTo hcomes hend
  obtain ⟨k, hk, hend', hmachine⟩ := ht.comesTo
  obtain rfl := hcomes.unique (by simp [hend]) hk (by simp [hend'])
  have hlast : t.debugger.lastHit = some first := by
    rw [hend] at hend'
    exact (congrArg Prod.snd (Option.some.inj hend')).symm
  exact ⟨t, ht, hmachine, by rw [hlast, hfind, hfirst], by rw [hlast]; rfl⟩

/-- To come to a ground to stop is to come to the first one. -/
theorem isLeast_iff {k : Nat} :
    IsLeast {i | m.Stops bs bound i} k ∧ m.Goes k ↔
      ComesTo m bs bound 0 k ∧ (m.ending? bs bound k).isSome = true := by
  constructor
  · rintro ⟨⟨hstops, hleast⟩, hgoes⟩
    refine ⟨⟨Nat.zero_le k, fun j _ hj => ?_, fun j _ hj => hgoes j hj⟩,
      Machine.ending?_isSome.mpr hstops⟩
    exact Machine.ending?_eq_none.mpr fun hstop => absurd (hleast hstop) (by omega)
  · rintro ⟨hk, hend⟩
    refine ⟨⟨Machine.ending?_isSome.mp hend, fun j hj => ?_⟩, fun j hj => hk.goes j (by omega) hj⟩
    by_contra hlt
    exact Machine.ending?_eq_none.mp (hk.unended j (by omega) (by omega)) hj

end Session

namespace Machine

variable {m : Machine} {bs : List Breakpoint} {bound : Option Int} {k : Nat}

/-- A running machine is not stopped before its first step, unless the bound is reached by then. -/
theorem Stops.pos (h : m.Stops bs bound k) (hm : m.isHalted = false) (hbound : ∀ n ∈ bound, 1 ≤ n) :
    1 ≤ k := by
  cases k with
  | zero =>
    rcases h with h | ⟨n, hn, hle⟩ | h | h | h
    · simp [stepped, hm] at h
    · have := hbound n hn
      omega
    · cases h
    · cases h
    · cases h
  | succ k => omega

/-- Before a run stops the machine has not halted. -/
theorem running_of_isLeast (h : IsLeast {i | m.Stops bs bound i} k) :
    ∀ j < k, (m.stepped j).isHalted = false := by
  intro j hj
  by_contra hhalted
  have hstops : m.Stops bs bound j := .inl (by simpa using hhalted)
  exact absurd (h.2 hstops) (by omega)

/-- Without breakpoints and requests only the end of the program and the bound stop a run. -/
theorem Stops.plain (h : m.Stops bs bound k) (hbs : ∀ b ∈ bs, b.enabled = false)
    (hask : ∀ i < k, (m.stepped i).asks = false) :
    (m.stepped k).isHalted = true ∨ ∃ n ∈ bound, n ≤ k := by
  rcases h with h | h | h | h | h
  · exact .inl h
  · exact .inr h
  · cases k with
    | zero => cases h
    | succ k =>
      obtain ⟨b, hb, hhit⟩ := List.find?_isSome.mp h
      simp [Breakpoint.Awaits, hbs b hb] at hhit
  · cases k with
    | zero => cases h
    | succ k =>
      simp only [hitAt] at h
      split at h
      · obtain ⟨b, hb, hhit⟩ := List.find?_isSome.mp h
        simp [Breakpoint.Holds, hbs b hb] at hhit
      · cases h
  · cases k with
    | zero => cases h
    | succ k => simp [askedAt, hask k (Nat.lt_succ_self k)] at h

/-- Then a plain run of the machine comes to the same place; without a bound it may have steps to
spare. -/
theorem run_plain (hleast : IsLeast {i | m.Stops bs bound i} k) (hgoes : m.Goes k)
    (hbs : ∀ b ∈ bs, b.enabled = false) (hask : ∀ i < k, (m.stepped i).asks = false)
    (spare : Nat) : Machine.run (bound.elim (k + spare) Int.toNat) m = .ok k (m.stepped k) := by
  refine runFrom_stepped (Nat.zero_le k) hgoes (running_of_isLeast hleast) ?_
  cases bound with
  | none =>
    rcases hleast.1.plain hbs hask with hhalted | ⟨n, ⟨⟩, -⟩
    exact .inr ⟨by simp, hhalted⟩
  | some n =>
    have hle : k ≤ n.toNat := hleast.2 (.inr (.inl ⟨n, rfl, by omega⟩))
    rw [Option.elim_some, Nat.zero_add]
    rcases hleast.1.plain hbs hask with hhalted | ⟨_, ⟨⟩, hn⟩
    · exact .inr ⟨hle, hhalted⟩
    · exact .inl (by omega)

end Machine

namespace Session

variable {s t : Session} {reason : StopReason}

/-- A run that returns leaves the machine as plain steps would have it at the first ground to stop,
and tells of that ground; it returns if and only if there is one and no step before it fails. A
running machine that may take a step takes one, and without breakpoints and requests the run comes
to where a plain run comes. -/
theorem run_stops_first (s : Session) (bound : Option Int) :
    let m := s.machine
    let bs := s.debugger.breakpoints
    (∀ reason t, s.Returns bound reason t →
      ∃ k, IsLeast {i | m.Stops bs bound i} k ∧ m.Goes k ∧
        t.machine.calm = (m.stepped k).calm ∧
        m.ending? bs bound k = some (reason, t.debugger.lastHit) ∧
        (m.isHalted = false → (∀ n ∈ bound, 1 ≤ n) → 1 ≤ k) ∧
        ((∀ b ∈ bs, b.enabled = false) → (∀ i < k, (m.stepped i).asks = false) →
          ∀ spare, Machine.run (bound.elim (k + spare) Int.toNat) m = .ok k (m.stepped k))) ∧
    ((∃ reason t, s.Returns bound reason t) ↔
      ∃ k, IsLeast {i | m.Stops bs bound i} k ∧ m.Goes k) := by
  intro m bs
  constructor
  · intro reason t h
    obtain ⟨k, hk, hend, hmachine⟩ := h.comesTo
    obtain ⟨hleast, hgoes⟩ := isLeast_iff.mpr ⟨hk, Option.isSome_iff_exists.mpr ⟨_, hend⟩⟩
    exact ⟨k, hleast, hgoes, hmachine, hend, hleast.1.pos,
      Machine.run_plain hleast hgoes⟩
  · constructor
    · rintro ⟨reason, t, h⟩
      obtain ⟨k, hk, hend, -⟩ := h.comesTo
      exact ⟨k, isLeast_iff.mpr ⟨hk, Option.isSome_iff_exists.mpr ⟨_, hend⟩⟩⟩
    · rintro ⟨k, hleast⟩
      obtain ⟨hk, hend⟩ := isLeast_iff.mp hleast
      obtain ⟨answer, hanswer⟩ := Option.isSome_iff_exists.mp hend
      obtain ⟨t, ht⟩ := returns_of_comesTo hk hanswer
      exact ⟨answer.1, t, ht⟩

/-- A countdown stops where X gets the value that a breakpoint waits for, and with that breakpoint
disabled it goes on to the bound. -/
theorem run_stops_first_countdown :
    let program : Ram := ⟨#[0xA2, 0x03, 0xCA, 0x86, 0x10, 0xD0, 0xFB, 0x00]⟩
    let bus : Bus := { mappings := [⟨0x0600, 0x0607, .ram program⟩, ⟨0x10, 0x10, .ram ⟨#[0]⟩⟩] }
    let m : Machine := { memory := { bus } }
    let b : Breakpoint := { condition := .registerValue, value := some 2, part := some "x" }
    let armed : Session := ⟨m, { breakpoints := [b] }⟩
    let disarmed : Session := ⟨m, { breakpoints := [{ b with enabled := false }] }⟩
    (∃ t k, armed.Returns none (.breakpoint 0x0603) t ∧ IsLeast {i | m.Stops [b] none i} k ∧
      t.debugger.lastHit = some b) ∧
    (∃ t, disarmed.Returns (some 3) .stepLimit t ∧ (∀ i < 3, (m.stepped i).asks = false) ∧
      ∃ k, 1 ≤ k ∧ Machine.run 3 m = .ok k (m.stepped k)) := by
  intro program bus m b armed disarmed
  constructor
  · have hrun : (outcome (run 9) armed).toOption = some (.breakpoint 0x0603) ∧
        (after (run 9) armed).debugger.lastHit = some b := by
      decide +kernel
    obtain ⟨hreason, hlast⟩ := hrun
    have hreturns : armed.Returns none (.breakpoint 0x0603) (after (run 9) armed) :=
      ⟨by decide, 9, outcome_eq_ok.mp (outcome_of_toOption hreason)⟩
    obtain ⟨k, hleast, -, -, hend, -⟩ := (run_stops_first armed none).1 _ _ hreturns
    exact ⟨_, k, hreturns, hleast, hlast⟩
  · have hrun : (outcome (run 3) disarmed).toOption = some .stepLimit ∧
        ∀ i < 3, (m.stepped i).asks = false := by
      decide +kernel
    obtain ⟨hreason, hask⟩ := hrun
    have hreturns : disarmed.Returns (some 3) .stepLimit (after (run 3) disarmed) :=
      outcome_eq_ok.mp (outcome_of_toOption hreason)
    obtain ⟨k, hleast, -, -, -, hpos, hplain⟩ :=
      (run_stops_first disarmed (some 3)).1 _ _ hreturns
    have hk : k ≤ 3 := hleast.2 (.inr (.inl ⟨3, rfl, by decide⟩))
    have hdisarmed : ∀ c ∈ disarmed.debugger.breakpoints, c.enabled = false := by decide
    exact ⟨_, hreturns, hask, k, hpos rfl (by simp),
      hplain hdisarmed (fun i hi => hask i (by omega)) 0⟩

end Session

end Micro6502
