import Micro6502.Proofs.Loading
import Micro6502.Proofs.Run
import Micro6502.Proofs.StepOutcome
import Micro6502.Window

namespace Micro6502

namespace Screen

def marked (s : Screen) : Screen :=
  { s with rows := s.rows.map fun row => row.map fun p => { p with touched := true } }

theorem map_modify {α β : Type} (xs : Array α) (i : Nat) {f : α → α} {g : α → β} {f' : β → β}
    (h : ∀ a, g (f a) = f' (g a)) : (xs.modify i f).map g = (xs.map g).modify i f' := by
  apply Array.ext_getElem?
  intro j
  simp only [Array.getElem?_map, Array.getElem?_modify]
  split
  · simp [Function.comp_def, h]
  · rfl

theorem marked_update (s : Screen) (x y color : Int) :
    (s.update x y color).marked = s.marked.update x y color := by
  unfold update
  by_cases h : 0 ≤ x ∧ x < s.width ∧ 0 ≤ y ∧ y < s.height
  · have h' : 0 ≤ x ∧ x < s.marked.width ∧ 0 ≤ y ∧ y < s.marked.height := h
    rw [if_pos h, if_pos h']
    simp only [marked]
    congr 1
    exact map_modify s.rows y.toNat fun row => map_modify row x.toNat fun _ => rfl
  · have h' : ¬ (0 ≤ x ∧ x < s.marked.width ∧ 0 ≤ y ∧ y < s.marked.height) := h
    rw [if_neg h, if_neg h']

theorem marked_untouched (s : Screen) : s.untouched.marked = s.marked := by
  simp [marked, untouched, Function.comp_def]

@[simp] theorem colors_marked (s : Screen) : s.marked.colors = s.colors := by
  simp [marked, colors, Function.comp_def]

end Screen

/-- The view changes nothing of a screen but the marks. -/
theorem View.marked_refresh (v : View) (s : Screen) : (v.refresh s).2.2.marked = s.marked := by
  unfold refresh
  split
  · rfl
  · exact s.marked_untouched

namespace Console

def marked : Console → Console
  | screen s => screen s.marked
  | recorder r => recorder r

theorem key_marked (c : Console) : c.marked.key = c.key := by
  cases c <;> rfl

theorem marked_update (c : Console) (x y color : Int) :
    c.marked.update x y color = (c.update x y color).marked := by
  cases c with
  | screen s => exact congrArg Console.screen (s.marked_update x y color).symm
  | recorder r => rfl

end Console

namespace Io

def marked (io : Io) : Io := { io with console := io.console.marked }

theorem unseen_marked : Unseen marked := by
  refine ⟨fun io address => ?_, fun io address value => ?_⟩
  · simp only [supply, marked, Console.key_marked]
    split_ifs <;> rfl
  · simp only [plot, marked, Console.marked_update]
    split_ifs <;> rfl

end Io

namespace Machine

variable {m m' : Machine} {limit : Nat} {e : Fault}

def marked (m : Machine) : Machine := changeIo Io.marked m

theorem marked_withScreen {s s' : Screen} (h : m.screen? = some s) (hs : s'.marked = s.marked) :
    (m.withScreen s').marked = m.marked := by
  obtain ⟨io, hio, hconsole⟩ := Option.bind_eq_some_iff.mp h
  have hscreen : io.console = .screen s := by
    cases hc : io.console with
    | screen _ => simpa [hc, Console.screen?] using hconsole
    | recorder _ => simp [hc, Console.screen?] at hconsole
  simp [marked, changeIo, withScreen, hio, Io.marked, hscreen, Console.marked, hs]

/-- Two machines that differ at most in the marks on their screens. -/
structure Alike (m m' : Machine) : Prop where
  state : m.state = m'.state
  status : m.status = m'.status
  steps : m.steps = m'.steps
  memory : m.memory = m'.memory
  colors : m.screen?.map (·.colors) = m'.screen?.map (·.colors)
  key : m.io.map (·.console.key) = m'.io.map (·.console.key)
  random : m.io.map (·.random) = m'.io.map (·.random)

theorem colors_marked (m : Machine) :
    m.marked.screen?.map (·.colors) = m.screen?.map (·.colors) := by
  cases hio : m.io with
  | none => simp [marked, changeIo, screen?, hio]
  | some io =>
    have hscreen : io.console.marked.screen?.map (·.colors) =
        io.console.screen?.map (·.colors) := by
      cases io.console with
      | screen s => exact congrArg some s.colors_marked
      | recorder r => rfl
    simpa [marked, changeIo, screen?, hio, Io.marked] using hscreen

theorem alike_of_marked (h : m.marked = m'.marked) : m.Alike m' where
  state := show m.marked.state = m'.marked.state by rw [h]
  status := show m.marked.status = m'.marked.status by rw [h]
  steps := show m.marked.steps = m'.marked.steps by rw [h]
  memory := show m.marked.memory = m'.marked.memory by rw [h]
  colors := by rw [← colors_marked m, h, colors_marked m']
  key := by
    have hkey := congrArg (fun m : Machine => m.io.map (·.console.key)) h
    simpa [marked, changeIo, Function.comp_def, Io.marked, Console.key_marked] using hkey
  random := by
    have hrandom := congrArg (fun m : Machine => m.io.map (·.random)) h
    simpa [marked, changeIo, Function.comp_def, Io.marked] using hrandom

/-- A run as the timer takes it: to come upon a byte that is no opcode is an end like any other. -/
def caught (limit : Nat) : MachineM Unit := fun m =>
  match run limit m with
  | .ok _ m => .ok () m
  | .error e m => if e.kind = .decode then .ok () m else .error e m

theorem caught_ok {k : Nat} (h : run limit m = .ok k m') : caught limit m = .ok () m' := by
  rw [caught, h]

theorem caught_decode (h : run limit m = .error e m') (hkind : e.kind = .decode) :
    caught limit m = .ok () m' := by
  rw [caught, h]
  exact if_pos hkind

theorem caught_error (h : run limit m = .error e m') (hkind : e.kind ≠ .decode) :
    caught limit m = .error e m' := by
  rw [caught, h]
  exact if_neg hkind

theorem after_caught (limit : Nat) (m : Machine) :
    after (caught limit) m = after (run limit) m := by
  cases hrun : run limit m with
  | ok k m' => rw [after_ok (caught_ok hrun), after_ok hrun]
  | error e m' =>
    rw [after_error hrun]
    by_cases hkind : e.kind = .decode
    · exact after_ok (caught_decode hrun hkind)
    · exact after_error (caught_error hrun hkind)

/-- A failure that is not caught is one of the run, and not for want of an opcode. -/
theorem caught_fails (h : outcome (caught limit) m = .error e) :
    outcome (run limit) m = .error e ∧ e.kind ≠ .decode := by
  cases hrun : run limit m with
  | ok k m' => simp [outcome_ok (caught_ok hrun)] at h
  | error e' m' =>
    by_cases hkind : e'.kind = .decode
    · simp [outcome_ok (caught_decode hrun hkind)] at h
    · rw [outcome_error (caught_error hrun hkind)] at h
      cases h
      exact ⟨outcome_error hrun, hkind⟩

/-- A run that ends on a byte that is no opcode halts the processor. -/
theorem isHalted_of_run (h : m.memory.Flat) (hrun : run limit m = .error e m')
    (hkind : e.kind = .decode) : m'.isHalted = true := by
  obtain ⟨i, hi, rfl⟩ := run_error hrun
  rw [stepped_succ, after_step_stumbled (stepped_steady h i).flat hi hkind]
  rfl

/-- The pieces of a run make it up, also where the first comes upon a byte that is no opcode: then
the processor is halted and nothing is left to do. -/
theorem caught_add (h : m.memory.Flat) (j k : Nat) :
    caught (j + k) m = (caught j >>= fun _ => caught k) m := by
  cases hj : run j m with
  | ok i m₁ =>
    rw [bind_ok (caught_ok hj)]
    cases hk : run k m₁ with
    | ok l m₂ =>
      have hlong : run (j + k) m = .ok (i + l) m₂ := by
        rw [run_add, bind_ok hj, bind_ok hk]
        rfl
      rw [caught_ok hk, caught_ok hlong]
    | error e m₂ =>
      have hlong : run (j + k) m = .error e m₂ := by
        rw [run_add, bind_ok hj, bind_error hk]
      rw [caught, hlong, caught, hk]
  | error e m₁ =>
    have hlong := run_add_error hj k
    by_cases hkind : e.kind = .decode
    · have hhalted := isHalted_of_run h hj hkind
      rw [caught_decode hlong hkind, bind_ok (caught_decode hj hkind),
        caught_ok (run_halted hhalted k)]
    · rw [caught_error hlong hkind, bind_error (caught_error hj hkind)]

theorem Commutes.caught {c : Io → Io} (hc : Io.Unseen c) (limit : Nat) :
    Commutes (changeIo c) Unit (caught limit) := by
  intro m
  rw [Machine.caught, Machine.caught, run, Commutes.runFrom hc 0 limit m]
  cases Machine.runFrom 0 limit m with
  | ok k m' => rfl
  | error e m' =>
    simp only [changed]
    split <;> rfl

/-- What marks cannot tell apart, runs cannot. -/
theorem caught_marked (h : m.marked = m'.marked) (limit : Nat) :
    outcome (caught limit) m = outcome (caught limit) m' ∧
      (after (caught limit) m).marked = (after (caught limit) m').marked := by
  have hcommutes := Commutes.caught Io.unseen_marked limit
  change changeIo Io.marked m = changeIo Io.marked m' at h
  change _ ∧ changeIo Io.marked (after (caught limit) m) =
    changeIo Io.marked (after (caught limit) m')
  rw [← hcommutes.outcome_eq m, ← hcommutes.outcome_eq m', ← hcommutes.after_eq m,
    ← hcommutes.after_eq m', h]
  exact ⟨rfl, rfl⟩

/-- With the standard table a run fails in one way only. -/
theorem run_standard (h : m.Sound) (ht : m.table = .standard) (hrun : run limit m = .error e m') :
    e.kind = .decode := by
  obtain ⟨i, hi, -⟩ := run_error hrun
  have hsound : (m.stepped i).Sound := stepped_keeps (fun _ _ => Sound.effect) h i
  rw [step_standard hsound ((stepped_steady h.flat i).table.trans ht) hi]
  rfl

end Machine

namespace Window

variable {T : Toolkit} {w : Window T}

def pace (w : Window T) : Nat := w.config.display.stepsPerTick.toNat

/-- Ticks one after the other, with nothing in between. -/
def ticks : Nat → WindowM T Unit
  | 0 => pure ()
  | k + 1 => do
    tick
    ticks k

theorem onMachine_ok {α : Type} {act : MachineM α} {a : α} {m : Machine}
    (h : act w.machine = .ok a m) : onMachine act w = .ok a { w with machine := m } := by
  simp only [onMachine, h]

theorem onMachine_error {α : Type} {act : MachineM α} {e : Fault} {m : Machine}
    (h : act w.machine = .error e m) : onMachine act w = .error e { w with machine := m } := by
  simp only [onMachine, h]

def refreshed (w : Window T) : Window T :=
  match w.machine.screen? with
  | none => w
  | some s =>
    { w with
      view := (w.view.refresh s).2.1
      machine := w.machine.withScreen (w.view.refresh s).2.2 }

theorem refresh_ok (w : Window T) : ∃ painted, refresh w = .ok painted w.refreshed := by
  unfold refreshed
  rw [refresh, bind_ok (get_ok w)]
  cases w.machine.screen? with
  | none => exact ⟨false, rfl⟩
  | some s => exact ⟨(w.view.refresh s).1, rfl⟩

theorem marked_refreshed (w : Window T) : w.refreshed.machine.marked = w.machine.marked := by
  unfold refreshed
  cases h : w.machine.screen? with
  | none => rfl
  | some s => exact Machine.marked_withScreen h (w.view.marked_refresh s)

@[simp] theorem config_refreshed (w : Window T) : w.refreshed.config = w.config := by
  unfold refreshed
  split <;> rfl

def caughtUp (w : Window T) : Window T :=
  (if w.machine.isHalted then w.stopTimer.showActions false else w).refreshed.showStatus

theorem catchUp_ok (w : Window T) : catchUp w = .ok () w.caughtUp := by
  obtain ⟨painted, h⟩ :=
    refresh_ok (if w.machine.isHalted then w.stopTimer.showActions false else w)
  change (refresh >>= fun _ => modify showStatus)
    (if w.machine.isHalted then w.stopTimer.showActions false else w) = _
  rw [bind_ok h]
  rfl

/-- After a run nothing happens to the machine but that marks are taken off. -/
theorem marked_caughtUp (w : Window T) : w.caughtUp.machine.marked = w.machine.marked := by
  refine (marked_refreshed _).trans ?_
  split <;> rfl

theorem config_caughtUp (w : Window T) : w.caughtUp.config = w.config := by
  refine (config_refreshed _).trans ?_
  split <;> rfl

theorem runSteps_ok {count : Int} {k : Nat} {m : Machine}
    (h : Machine.run count.toNat w.machine = .ok k m) :
    runSteps count w = .ok () { w with machine := m }.caughtUp := by
  rw [runSteps, onMachine_ok h]
  exact catchUp_ok _

theorem runSteps_undefined {count : Int} {opcode : Byte} {address : Int} {m : Machine}
    (h : Machine.run count.toNat w.machine =
      .error (.unknownOpcode opcode address) m) :
    runSteps count w = .ok () { w.stopTimer with
      machine := m
      message := (Fault.unknownOpcode opcode address).message }.caughtUp := by
  rw [runSteps, onMachine_error h]
  exact catchUp_ok _

/-- One piece of a run. -/
theorem runSteps_eq (count : Int) (w : Window T) :
    outcome (runSteps count) w = outcome (Machine.caught count.toNat) w.machine ∧
      (after (runSteps count) w).machine.marked =
        (after (Machine.caught count.toNat) w.machine).marked ∧
      (after (runSteps count) w).config = w.config := by
  cases hrun : Machine.run count.toNat w.machine with
  | ok k m =>
    have hsteps := runSteps_ok hrun
    have hcaught := Machine.caught_ok hrun
    rw [outcome_ok hsteps, after_ok hsteps, outcome_ok hcaught, after_ok hcaught]
    exact ⟨rfl, marked_caughtUp _, config_caughtUp _⟩
  | error e m =>
    by_cases hkind : e.kind = .decode
    · obtain ⟨opcode, address, rfl⟩ : ∃ opcode address, e = .unknownOpcode opcode address := by
        cases e <;> first | exact ⟨_, _, rfl⟩ | cases hkind
      have hsteps := runSteps_undefined hrun
      have hcaught := Machine.caught_decode hrun hkind
      rw [outcome_ok hsteps, after_ok hsteps, outcome_ok hcaught, after_ok hcaught]
      exact ⟨rfl, marked_caughtUp _, config_caughtUp _⟩
    · have hsteps : runSteps count w = .error e { w with machine := m } := by
        rw [runSteps, onMachine_error hrun]
        cases e <;> first | rfl | exact absurd rfl hkind
      have hcaught := Machine.caught_error hrun hkind
      rw [outcome_error hsteps, after_error hsteps, outcome_error hcaught, after_error hcaught]
      exact ⟨rfl, rfl, rfl⟩

theorem tick_eq (w : Window T) :
    outcome tick w = outcome (Machine.caught w.pace) w.machine ∧
      (after tick w).machine.marked = (after (Machine.caught w.pace) w.machine).marked ∧
      (after tick w).pace = w.pace := by
  obtain ⟨hout, hmarked, hconfig⟩ := runSteps_eq w.config.display.stepsPerTick w
  exact ⟨hout, hmarked,
    congrArg (fun c : SystemConfig => c.display.stepsPerTick.toNat) hconfig⟩

/-- Ticks come to where one run comes, and fail as it fails. -/
theorem ticks_eq (h : w.machine.memory.Flat) (k : Nat) :
    outcome (ticks k) w = outcome (Machine.caught (k * w.pace)) w.machine ∧
      (after (ticks k) w).machine.marked =
        (after (Machine.caught (k * w.pace)) w.machine).marked := by
  induction k generalizing w with
  | zero =>
    rw [Nat.zero_mul]
    exact ⟨rfl, rfl⟩
  | succ k ih =>
    obtain ⟨hout, hmarked, hpace⟩ := tick_eq w
    have hlong := Machine.caught_add h w.pace (k * w.pace)
    rw [Nat.succ_mul, Nat.add_comm (k * w.pace)]
    cases hfirst : Machine.caught w.pace w.machine with
    | error e m =>
      rw [outcome_error hfirst] at hout
      rw [after_error hfirst] at hmarked
      have hticks : ticks (k + 1) w = .error e (after tick w) :=
        bind_error (outcome_eq_error.mp hout)
      rw [bind_error hfirst] at hlong
      rw [outcome_error hticks, after_error hticks, outcome_error hlong, after_error hlong]
      exact ⟨rfl, hmarked⟩
    | ok _ m =>
      rw [outcome_ok hfirst] at hout
      rw [after_ok hfirst] at hmarked
      have htick : tick w = .ok () (after tick w) := outcome_eq_ok.mp hout
      have hflat : (after tick w).machine.memory.Flat := by
        have hmemory : (after tick w).machine.memory = m.memory :=
          (Machine.alike_of_marked hmarked).memory
        rw [hmemory, ← after_ok hfirst, Machine.after_caught]
        exact (Machine.does_run w.pace).keeps (fun _ _ hm he => (he.steady hm).flat) h
      -- the other ticks start from the machine of the long run, but for the marks
      obtain ⟨hrest, hrestMarked⟩ := ih hflat
      obtain ⟨hsame, hsameMarked⟩ := Machine.caught_marked hmarked (k * w.pace)
      rw [hpace] at hrest hrestMarked
      rw [bind_ok hfirst] at hlong
      rw [ticks, outcome_bind_ok htick, after_bind_ok htick, hrest, hrestMarked, hsame, hsameMarked,
        outcome, outcome, after, after, hlong]
      exact ⟨rfl, rfl⟩

/-- The bounds of the ticks add up to that of the run, also where they are negative. -/
theorem toNat_natCast_mul (k : Nat) (n : Int) : (k * n).toNat = k * n.toNat := by
  rcases Int.le_total 0 n with hn | hn
  · rw [Int.toNat_mul (Int.natCast_nonneg k) hn, Int.toNat_natCast]
  · have hk : (k : Int) * n ≤ 0 := Int.mul_nonpos_of_nonneg_of_nonpos (Int.natCast_nonneg k) hn
    rw [Int.toNat_of_nonpos hn, Int.toNat_of_nonpos hk, Nat.mul_zero]

/-- A window opens with the program in the memory of the configured machine, if there is room. -/
theorem ofConfig_eq (c : SystemConfig) (program : List Byte) (random : Random)
    (table : OpcodeTable) :
    let m := c.build (.screen c.screen) random table
    ofConfig T c program random table =
      if 0x10000 < c.origin + (program.length : Nat) then
        .error (.doesNotFit program.length c.origin)
      else .ok (create T { m with memory := m.memory.loaded c.origin (byteValues program) }
        program c) := by
  intro m
  have hflat : m.memory.Flat := (c.build_describes c.screen random table).flat
  by_cases hlong : 0x10000 < c.origin + (program.length : Nat)
  · have hload : Program.load program (some c.origin) m.memory =
        .error (.doesNotFit program.length c.origin) m.memory := Program.load_refused hlong
    rw [if_pos hlong, ofConfig, Machine.onMemory_error hload]
  · have hload : Program.load program (some c.origin) m.memory =
        .ok program.length (m.memory.loaded c.origin (byteValues program)) :=
      Program.load_flat hflat hlong
    rw [if_neg hlong, ofConfig, Machine.onMemory_ok hload]

theorem ofConfig_describes {c : SystemConfig} {program : List Byte} {random : Random}
    {table : OpcodeTable} (h : ofConfig T c program random table = .ok w) :
    c.Describes w.machine ∧ w.machine.table = table ∧ w.config = c := by
  rw [ofConfig_eq] at h
  obtain ⟨hflat, hperipherals, hrunning⟩ := c.build_describes c.screen random table
  split at h
  · cases h
  · cases h
    exact ⟨⟨hflat.loaded _ _, hperipherals, hrunning⟩, rfl, rfl⟩

/-- The window and the command line run the same machine. Ticks leave it as one run of as many
steps leaves it, whatever number of steps a tick is said to take, and no tick fails for want of an
opcode; as long as the screen has columns, none fails at all. -/
theorem ticks_run {c : SystemConfig} (h : c.Describes w.machine)
    (ht : w.machine.table = .standard) (k : Nat) :
    let run := Machine.run (k * w.config.display.stepsPerTick).toNat
    (after (ticks k) w).machine.Alike (after run w.machine) ∧
    (∀ e, outcome (ticks k) w = .error e → e.kind ≠ .decode) ∧
    (c.io.screenWidth ≠ 0 → outcome (ticks k) w = .ok () ∧
      ∀ e, outcome run w.machine = .error e → e.kind = .decode) := by
  intro run
  have hrun : run = Machine.run (k * w.pace) :=
    congrArg Machine.run (toNat_natCast_mul k w.config.display.stepsPerTick)
  obtain ⟨hout, hmarked⟩ := ticks_eq h.flat k
  rw [Machine.after_caught, ← hrun] at hmarked
  refine ⟨Machine.alike_of_marked hmarked, ?_, fun hwidth => ?_⟩
  · intro e he
    exact (Machine.caught_fails (hout.symm.trans he)).2
  · have hdecode : ∀ e, outcome run w.machine = .error e → e.kind = .decode := fun e he =>
      Machine.run_standard (h.sound_of_width hwidth) ht (outcome_eq_error.mp he)
    refine ⟨?_, hdecode⟩
    cases hticks : outcome (ticks k) w with
    | ok _ => rfl
    | error e =>
      obtain ⟨hfails, hkind⟩ := Machine.caught_fails (hout.symm.trans hticks)
      exact absurd (hdecode e (hrun ▸ hfails)) hkind

/-- A window that opens on a byte that is no opcode: three ticks come to where the run ends, and none
of them fails. -/
theorem ticks_run_undefined :
    ∃ w, ofConfig .plain {} [0x02] ⟨fun _ => 0, 0⟩ .standard = .ok w ∧
      ({} : SystemConfig).Describes w.machine ∧ w.machine.table = .standard ∧
      ({} : SystemConfig).io.screenWidth ≠ 0 ∧ outcome (ticks 3) w = .ok () ∧
      (after (ticks 3) w).machine.Alike
        (after (Machine.run (3 * w.config.display.stepsPerTick).toNat) w.machine) := by
  obtain ⟨w, hw⟩ : ∃ w, ofConfig .plain {} [0x02] ⟨fun _ => 0, 0⟩ .standard = .ok w := by
    rw [ofConfig_eq]
    exact ⟨_, if_neg (by decide)⟩
  obtain ⟨h, ht, -⟩ := ofConfig_describes hw
  have hwidth : ({} : SystemConfig).io.screenWidth ≠ 0 := by decide
  obtain ⟨halike, -, hends⟩ := ticks_run h ht 3
  exact ⟨w, hw, h, ht, hwidth, (hends hwidth).1, halike⟩

end Window

end Micro6502
