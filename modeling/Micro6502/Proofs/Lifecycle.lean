import Mathlib.Data.List.Basic
import Micro6502.Proofs.Command
import Micro6502.Proofs.Run
import Micro6502.Proofs.StepOutcome

namespace Micro6502

theorem Status.isHalted_of_fault? {s : Status} (h : s.fault? ≠ none) : s.isHalted = true := by
  cases s with
  | running => exact absurd rfl h
  | _ => rfl

namespace Machine

def Completes (m : Machine) (mnemonic : Mnemonic) : Prop :=
  ∃ s d, outcome step m = .ok s ∧ s.decoded = some d ∧ d.instruction.mnemonic = mnemonic

def Stumbles (m : Machine) : Prop :=
  m.isHalted = false ∧ m.table.get? (m.memory.cell m.memory.pc) = none

/-- A step halts the processor for good, with the given status. -/
inductive Verdict (m : Machine) : Status → Prop
  | finished (h : m.Completes .brk) : Verdict m .finished
  | failed (h : m.Stumbles) : Verdict m (.failed (m.memory.cell m.memory.pc) m.memory.pc)

def completes (m : Machine) : Bool :=
  (outcome step m).toOption.any (·.decoded.isSome)

/-- The machines on which a run takes its steps. -/
def visits : Nat → Machine → List Machine
  | 0, _ => []
  | limit + 1, m =>
    if m.isHalted then []
    else m :: match step m with
      | .ok _ m' => visits limit m'
      | .error _ _ => []

theorem mem_visits {m : Machine} (h : m.isHalted = false) (limit : Nat) :
    m ∈ visits (limit + 1) m := by
  rw [visits, if_neg (by simp [h])]
  exact List.mem_cons_self

def idle (m : Machine) : Snapshot :=
  { state := m.state, decoded := none, steps := m.steps, accesses := [] }

end Machine

namespace Command

open Machine

/-- The commands that an instruction cycle is driven with. -/
def drives : Command → Bool
  | step | run _ | reset => true
  | _ => false

/-- The steps since the last reset, when a command is given to `m`. -/
def note (past : List Machine) (m : Machine) : Command → List Machine
  | step => past ++ [m]
  | run bound => past ++ visits bound.toNat m
  | reset => []
  | _ => past

end Command

namespace Machine

variable {m : Machine} {past : List Machine} {limit : Nat}

/-- The machines on which commands have taken steps since the last reset among them. -/
def sinceReset (past : List Machine) (m : Machine) : List Command → List Machine
  | [] => past
  | c :: rest => sinceReset (c.note past m) (c.perform m) rest

theorem Verdict.isHalted {s : Status} (h : m.Verdict s) : s.isHalted = true := by
  cases h <;> rfl

/-- A halted processor has had its verdict. -/
theorem Verdict.running {s : Status} (h : m.Verdict s) : m.isHalted = false := by
  cases h with
  | failed h => exact h.1
  | finished h =>
    obtain ⟨s, d, hs, hd, -⟩ := h
    by_contra hm
    rw [outcome_ok (step_halted (by simpa using hm))] at hs
    cases hs
    cases hd

theorem Completes.completes {mnemonic : Mnemonic} (h : m.Completes mnemonic) :
    m.completes = true := by
  obtain ⟨s, d, hs, hd, -⟩ := h
  simp [Machine.completes, hs, hd, Except.toOption]

theorem Completes.unique {mnemonic mnemonic' : Mnemonic} (h : m.Completes mnemonic)
    (h' : m.Completes mnemonic') : mnemonic = mnemonic' := by
  obtain ⟨s, d, hs, hd, rfl⟩ := h
  obtain ⟨s', d', hs', hd', rfl⟩ := h'
  cases hs.symm.trans hs'
  cases hd.symm.trans hd'
  rfl

theorem not_completes_error {e : Fault} (h : outcome step m = .error e) (mnemonic : Mnemonic) :
    ¬ m.Completes mnemonic := by
  rintro ⟨s, d, hs, -⟩
  cases hs.symm.trans h

theorem completes_halted (h : m.isHalted = true) : m.completes = false := by
  rw [completes, outcome_ok (step_halted h)]
  rfl

theorem completes_error {e : Fault} (h : outcome step m = .error e) : m.completes = false := by
  rw [completes, h]
  rfl

/-- How a step that finds an instruction leaves status and count. -/
theorem step_life {i : Instruction} (h : m.memory.Flat) (hr : m.status = .running)
    (ht : m.table.get? (m.memory.cell m.memory.pc) = some i) :
    (m.Completes i.mnemonic ∧
      (after step m).status = (if i.mnemonic = .brk then .finished else .running) ∧
      (after step m).steps = m.steps + 1) ∨
    (∃ e, outcome step m = .error e ∧ (after step m).status = .running ∧
      (after step m).steps = m.steps) := by
  obtain ⟨d, m₁, hstep, h₁, hd⟩ := step_defined h hr ht
  cases he : execute d m₁ with
  | ok _ m₂ =>
    obtain ⟨hstatus, hsteps⟩ := execute_status he
    have hok := hstep.trans ((bind_ok he).trans (report_eq d m₂))
    refine .inl ⟨⟨_, d, outcome_ok hok, rfl, by rw [hd.instruction]⟩, ?_, ?_⟩
    · rw [after_ok hok, ← hd.instruction, ← hr, ← h₁.status]
      exact hstatus
    · rw [after_ok hok, ← h₁.steps, ← hsteps]
  | error e m₂ =>
    obtain ⟨hstatus, hsteps⟩ := execute_failed he
    have herror := hstep.trans (bind_error he)
    refine .inr ⟨e, outcome_error herror, ?_, ?_⟩
    · rw [after_error herror, hstatus, h₁.status, hr]
    · rw [after_error herror, hsteps, h₁.steps]

theorem step_verdict {s : Status} (h : m.memory.Flat) (hs : m.Verdict s) :
    (after step m).status = s := by
  have hr := running_iff.mp hs.running
  cases hs with
  | failed hstumbles => rw [after_error (step_stumbled h hr hstumbles.2), stumbled]
  | finished hbrk =>
    cases ht : m.table.get? (m.memory.cell m.memory.pc) with
    | none => exact absurd hbrk (not_completes_error (step_undefined h hr ht) .brk)
    | some i =>
      rcases step_life h hr ht with ⟨hdone, hstatus, -⟩ | ⟨e, he, -⟩
      · rw [hstatus, if_pos (hdone.unique hbrk)]
      · exact absurd hbrk (not_completes_error he .brk)

/-- Without a verdict the status stays as it is. -/
theorem step_unjudged (h : m.memory.Flat) (hs : ∀ s, ¬ m.Verdict s) :
    (after step m).status = m.status := by
  cases hm : m.isHalted with
  | true => rw [after_ok (step_halted hm), cleared]
  | false =>
    have hr := running_iff.mp hm
    cases ht : m.table.get? (m.memory.cell m.memory.pc) with
    | none => exact absurd (.failed ⟨hm, ht⟩) (hs _)
    | some i =>
      rcases step_life h hr ht with ⟨hdone, hstatus, -⟩ | ⟨e, -, hstatus, -⟩
      · have hbrk : i.mnemonic ≠ .brk := fun hbrk => hs _ (.finished (hbrk ▸ hdone))
        rw [hstatus, if_neg hbrk, hr]
      · rw [hstatus, hr]

theorem step_count (h : m.memory.Flat) :
    (after step m).steps = m.steps + if m.completes then 1 else 0 := by
  cases hm : m.isHalted with
  | true =>
    rw [after_ok (step_halted hm), completes_halted hm]
    rfl
  | false =>
    have hr := running_iff.mp hm
    cases ht : m.table.get? (m.memory.cell m.memory.pc) with
    | none =>
      have hstep := step_stumbled h hr ht
      rw [after_error hstep, completes_error (outcome_error hstep)]
      rfl
    | some i =>
      rcases step_life h hr ht with ⟨hdone, -, hsteps⟩ | ⟨e, he, -, hsteps⟩
      · rw [hsteps, if_pos hdone.completes]
      · rw [hsteps, completes_error he]
        rfl

/-- What the steps since the last reset have made of the processor. -/
structure Life (past : List Machine) (m : Machine) : Prop where
  flat : m.memory.Flat
  verdict : ∀ p ∈ past, ∀ s, p.Verdict s → m.status = s
  cause : m.isHalted = true → ∃ p ∈ past, ∃ s, p.Verdict s
  count : m.steps = past.countP completes

namespace Life

theorem fresh (h : m.memory.Flat) (hr : m.status = .running) (hn : m.steps = 0) : Life [] m :=
  ⟨h, by simp, fun hm => by simp [running_iff.mpr hr] at hm, hn⟩

theorem step (h : Life past m) : Life (past ++ [m]) (after step m) := by
  refine ⟨stepped_one m ▸ (stepped_steady h.flat 1).flat, ?_, ?_, ?_⟩
  · intro p hp s hs
    rcases List.mem_append.mp hp with hp | hp
    · -- the processor has halted by now, and a step does nothing to it
      have hm := h.verdict p hp s hs
      have hhalted : m.isHalted = true := by rw [isHalted, hm, hs.isHalted]
      have hnone : ∀ s, ¬ m.Verdict s := fun s hs => absurd hs.running (by simp [hhalted])
      rw [step_unjudged h.flat hnone, hm]
    · cases List.mem_singleton.mp hp
      exact step_verdict h.flat hs
  · intro hhalted
    by_cases hs : ∃ s, m.Verdict s
    · exact ⟨m, by simp, hs⟩
    · have hm : (after Machine.step m).isHalted = m.isHalted :=
        congrArg Status.isHalted (step_unjudged h.flat (not_exists.mp hs))
      obtain ⟨p, hp, hcause⟩ := h.cause (hm ▸ hhalted)
      exact ⟨p, List.mem_append_left _ hp, hcause⟩
  · rw [step_count h.flat, h.count, List.countP_append, List.countP_singleton]

theorem run (h : Life past m) : Life (past ++ visits limit m) (after (run limit) m) := by
  induction limit generalizing past m with
  | zero =>
    change Life (past ++ []) m
    rwa [List.append_nil]
  | succ limit ih =>
    cases hm : m.isHalted with
    | true => simpa [visits, hm, after_run_halted hm] using h
    | false =>
      cases hs : Machine.step m with
      | error e m' =>
        rw [after_run_fail hm hs, ← after_error hs]
        simpa [visits, hm, hs] using h.step
      | ok s m' =>
        have hrest := ih (after_ok hs ▸ h.step)
        rw [after_run_step hm hs]
        simpa [visits, hm, hs] using hrest

theorem perform (h : Life past m) {c : Command} (hc : c.drives = true) :
    Life (c.note past m) (c.perform m) := by
  cases c with
  | step => exact Command.perform_step m ▸ h.step
  | run bound => exact Command.perform_run m bound ▸ h.run
  | reset => exact fresh (h.flat.move _ _) rfl rfl
  | _ => cases hc

theorem performAll {commands : List Command} (h : Life past m)
    (hc : ∀ c ∈ commands, c.drives = true) :
    Life (sinceReset past m commands) (m.performAll commands) := by
  induction commands generalizing past m with
  | nil => exact h
  | cons c rest ih =>
    have hrest : ∀ c ∈ rest, c.drives = true := fun c hc' => hc c (.tail _ hc')
    exact ih (h.perform (hc c (.head _))) hrest

end Life

/-- Steps and runs do nothing to a halted processor but empty the log. -/
theorem performAll_halted {commands : List Command} (h : m.isHalted = true)
    (hc : ∀ c ∈ commands, c.drives = true ∧ c ≠ .reset) :
    (m.performAll commands).cleared = m.cleared := by
  induction commands generalizing m with
  | nil => rfl
  | cons c rest ih =>
    have hfirst : (c.perform m).cleared = m.cleared := by
      obtain ⟨hdrives, hreset⟩ := hc c (.head _)
      cases c with
      | step => rw [Command.perform_step, after_ok (step_halted h), cleared_cleared]
      | run bound => rw [Command.perform_run, after_run_halted h]
      | reset => exact absurd rfl hreset
      | _ => cases hdrives
    have hhalted : (c.perform m).isHalted = true :=
      (congrArg Machine.isHalted hfirst).trans h
    exact (ih hhalted fun c hc' => hc c (.tail _ hc')).trans hfirst

/-- The life of a processor that is stepped, run and reset in any order. It has halted if and only if
some step since the last reset has come to the end of a program or has stumbled, and its status is the
verdict of that step. A stumble changes nothing but status, log and counter. Once halted, it stays as
it is. The count is that of the completed instructions, and a run tells by how much it has grown. -/
theorem lifecycle {commands : List Command} (h : m.memory.Flat) (hr : m.status = .running)
    (hn : m.steps = 0) (hc : ∀ c ∈ commands, c.drives = true) :
    let past := sinceReset [] m commands
    let t := m.performAll commands
    (t.status.fault? ≠ none → t.isHalted = true) ∧
    (t.isHalted = true ↔ ∃ p ∈ past, p.Completes .brk ∨ p.Stumbles) ∧
    (∀ p ∈ past, p.Completes .brk → t.status.fault? = none) ∧
    (∀ p ∈ past, p.Stumbles →
      t.status.fault? = some (.unknownOpcode (p.memory.cell p.memory.pc) p.memory.pc)) ∧
    (∀ e, outcome step t = .error e → e.kind = .decode →
      let opcode := t.memory.cell t.memory.pc
      after step t =
        { t with
          memory := { t.memory with
            bus := { t.memory.bus with log := #[⟨.read, word t.memory.pc, opcode⟩] }
            pc := word (t.memory.pc + 1) }
          status := .failed opcode t.memory.pc }) ∧
    (t.isHalted = true → ∀ more : List Command, (∀ c ∈ more, c.drives = true ∧ c ≠ .reset) →
      let u := t.performAll more
      u.cleared = t.cleared ∧ outcome step u = .ok t.idle ∧
        ∀ bound r, u.Ends bound r ↔ r = .ok 0 u) ∧
    t.steps = past.countP completes ∧
    (∀ bound n t', t.Ends bound (.ok n t') →
      (∀ k ∈ bound, 0 ≤ k → n ≤ k) ∧ t'.steps = t.steps + n) := by
  intro past t
  have hlife : Life past t := (Life.fresh h hr hn).performAll hc
  have hverdict (p : Machine) : (∃ s, p.Verdict s) ↔ p.Completes .brk ∨ p.Stumbles := by
    constructor
    · rintro ⟨s, hs⟩
      cases hs with
      | finished hbrk => exact .inl hbrk
      | failed hstumbles => exact .inr hstumbles
    · rintro (hbrk | hstumbles)
      · exact ⟨_, .finished hbrk⟩
      · exact ⟨_, .failed hstumbles⟩
  refine ⟨?_, ?_, ?_, ?_, ?_, ?_, hlife.count, ?_⟩
  · exact Status.isHalted_of_fault?
  · constructor
    · intro hhalted
      obtain ⟨p, hp, hs⟩ := hlife.cause hhalted
      exact ⟨p, hp, (hverdict p).mp hs⟩
    · rintro ⟨p, hp, hcause⟩
      obtain ⟨s, hs⟩ := (hverdict p).mpr hcause
      rw [isHalted, hlife.verdict p hp s hs, hs.isHalted]
  · intro p hp hbrk
    rw [hlife.verdict p hp _ (.finished hbrk)]
    rfl
  · intro p hp hstumbles
    rw [hlife.verdict p hp _ (.failed hstumbles)]
    rfl
  · intro e he hkind
    rw [after_step_stumbled hlife.flat he hkind]
    exact t.stumbled_eq
  · intro hhalted more hmore u
    have hcleared : u.cleared = t.cleared := performAll_halted hhalted hmore
    have hu : u.isHalted = true := (congrArg Machine.isHalted hcleared).trans hhalted
    refine ⟨hcleared, ?_, fun _ _ => ends_halted hu⟩
    rw [outcome_ok (step_halted hu)]
    exact congrArg (fun m => Except.ok m.idle) hcleared
  · exact fun bound n t' hends => hends.count

/-- A run stumbles over its first byte and halts. A reset takes it to an end of the program at another
place, and the fault is forgotten. -/
theorem lifecycle_stumbling :
    let m : Machine :=
      { memory := { Memory.loaded {} 0x0700 [0x02] with origin := 0x0600, pc := 0x0700 } }
    let stumbling : List Command := [.run 5, .step]
    let commands := stumbling ++ [.reset, .step]
    let t := m.performAll stumbling
    let t' := m.performAll commands
    m.memory.Flat ∧ m.status = .running ∧ m.steps = 0 ∧ (∀ c ∈ commands, c.drives = true) ∧
      t.status.fault? = some (.unknownOpcode 0x02 0x0700) ∧ t.steps = 0 ∧
      t'.isHalted = true ∧ t'.status.fault? = none ∧ t'.steps = 1 := by
  have hblank : Memory.Flat {} := Bus.flat_blank
  have hloaded := hblank.loaded 0x0700 [0x02]
  have hcell₀ : (Memory.loaded {} 0x0700 [0x02]).cell 0x0700 = 0x02 := by
    simp only [Memory.loaded]
    rw [Memory.cell_stored hblank, if_pos rfl]
    rfl
  have hcell₁ : (Memory.loaded {} 0x0700 [0x02]).cell 0x0600 = 0x00 := by
    simp only [Memory.loaded]
    rw [Memory.cell_stored hblank, if_neg (by decide)]
    exact Bus.cell_blank 0x0600
  generalize Memory.loaded {} 0x0700 [0x02] = memory at hloaded hcell₀ hcell₁ ⊢
  intro m stumbling commands t t'
  have hflat : m.memory.Flat := hloaded
  have hdrives : ∀ c ∈ commands, c.drives = true := by decide
  have hcell : m.memory.cell m.memory.pc = 0x02 := hcell₀
  have hstumbles : m.Stumbles := ⟨rfl, by rw [hcell]; rfl⟩
  have hrun : after (run (Int.toNat 5)) m = m.stumbled :=
    after_run_fail rfl (step_stumbled hflat rfl hstumbles.2) 4
  have hidle : Command.perform (Command.perform m (.run 5)) .step = m.stumbled.cleared := by
    rw [Command.perform_run, hrun, Command.perform_step, after_ok (step_halted rfl)]
  have ht : t = m.stumbled.cleared := by
    rw [show t = m.performAll [.run 5, .step] from rfl, performAll_cons, performAll_cons, hidle]
    rfl
  obtain ⟨-, -, -, hfault, -⟩ :=
    lifecycle hflat rfl rfl fun c hc => hdrives c (List.mem_append_left _ hc)
  have hpast : m ∈ sinceReset [] m stumbling := by
    rw [show stumbling = [.run 5, .step] from rfl, sinceReset, sinceReset, sinceReset, Command.note,
      Command.note]
    exact List.mem_append_left _ (mem_visits rfl 4)
  -- the reset leaves the processor about to end the program at the origin
  let u := after reset m.stumbled.cleared
  have hu : u.memory.Flat := (m.primed_took.flat hflat).cleared.move _ _
  have hend : u.memory.cell u.memory.pc = 0x00 :=
    (m.primed.memory.cell_cleared 0x0600).trans ((m.primed_took.cell 0x0600).trans hcell₁)
  have hentry : u.table.get? (u.memory.cell u.memory.pc) = some ⟨.brk, .implicit⟩ := by
    rw [hend]
    rfl
  have hbrk : u.Completes .brk := by
    have hio : u.io = none := rfl
    obtain ⟨s, hs⟩ := step_returns ⟨hu, by simp [hio]⟩ rfl hentry rfl
    rcases step_life hu rfl hentry with ⟨hdone, -⟩ | ⟨e, he, -⟩
    · exact hdone
    · cases hs.symm.trans he
  have hpast' : sinceReset [] m commands = [u] := by
    rw [show commands = [.run 5, .step, .reset, .step] from rfl, sinceReset, sinceReset, hidle,
      sinceReset, sinceReset]
    rfl
  obtain ⟨-, hhalted', hfault', -, -, -, hcount, -⟩ := lifecycle hflat rfl rfl hdrives
  rw [hpast'] at hhalted' hfault' hcount
  refine ⟨hflat, rfl, rfl, hdrives, ?_, by rw [ht]; rfl, ?_, ?_, ?_⟩
  · rw [← hcell]
    exact hfault m hpast hstumbles
  · exact hhalted'.mpr ⟨u, by simp, .inl hbrk⟩
  · exact hfault' u (by simp) hbrk
  · exact hcount.trans (by simp [hbrk.completes])

end Machine

end Micro6502
