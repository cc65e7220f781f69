import Mathlib.Logic.Function.Iterate
import Micro6502.Proofs.Cycle
import Micro6502.Proofs.Effect
import Micro6502.Proofs.Sound

namespace Micro6502

namespace Machine

def bare (m : Machine) : Machine := { m with io := none }

@[simp] theorem bare_table (m : Machine) : m.bare.table = m.table := rfl

@[simp] theorem bare_memory (m : Machine) : m.bare.memory = m.memory := rfl

def Equipped (c : IoConfig) (m : Machine) : Prop := m.io.map (·.config) = some c

/-- A result on an equipped machine and the result on the bare one: the same value and machine but
for the peripherals, or a failure of the same kind. -/
inductive Mirrors {α : Type} (c : IoConfig) :
    EStateM.Result Fault Machine α → EStateM.Result Fault Machine α → Prop
  | ok (a : α) (m : Machine) (hm : m.Equipped c) : Mirrors c (.ok a m) (.ok a m.bare)
  | error {e e' : Fault} (m : Machine) (hm : m.Equipped c) (he : e.kind = e'.kind) :
      Mirrors c (.error e m) (.error e' m.bare)

/-- The action does the same on the equipped machine and on the bare one. -/
def Mirrored {α : Type} (c : IoConfig) (act : MachineM α) (m : Machine) : Prop :=
  Mirrors c (act m) (act m.bare)

def Quiet (c : IoConfig) (α : Type) (act : MachineM α) : Prop :=
  ∀ m : Machine, m.Equipped c → Mirrored c act m

def Unanswered (c : IoConfig) (address : Int) : Prop :=
  word address ≠ c.randomAddress ∧ word address ≠ c.keypressAddress

theorem Unanswered.supply {io : Io} {address : Int} (h : Unanswered io.config address) :
    io.supply (word address) = none := by
  rw [Io.supply, if_neg h.1, if_neg h.2]

def Untouched (c : IoConfig) (addresses : List Int) : Prop :=
  ∀ address ∈ addresses, Unanswered c address

variable {α β : Type} {c : IoConfig} {m : Machine} {act : MachineM α} {f : α → MachineM β}

namespace Mirrored

/-- The two outcomes of an action that does the same on both machines. -/
theorem cases (h : Mirrored c act m) :
    (∃ a m', act m = .ok a m' ∧ act m.bare = .ok a m'.bare ∧ m'.Equipped c) ∨
      ∃ e e' m', act m = .error e m' ∧ act m.bare = .error e' m'.bare ∧ m'.Equipped c ∧
        e.kind = e'.kind := by
  unfold Mirrored at h
  generalize act m = r at h ⊢
  generalize act m.bare = r' at h ⊢
  cases h with
  | ok a m' hm => exact .inl ⟨a, m', rfl, rfl, hm⟩
  | error m' hm he => exact .inr ⟨_, _, m', rfl, rfl, hm, he⟩

theorem ok {a : α} {m' : Machine} (h : act m = .ok a m') (hbare : act m.bare = .ok a m'.bare)
    (hm : m'.Equipped c) : Mirrored c act m := by
  unfold Mirrored
  rw [h, hbare]
  exact .ok a m' hm

theorem error {e e' : Fault} {m' : Machine} (h : act m = .error e m')
    (hbare : act m.bare = .error e' m'.bare) (hm : m'.Equipped c) (he : e.kind = e'.kind) :
    Mirrored c act m := by
  unfold Mirrored
  rw [h, hbare]
  exact .error m' hm he

/-- The second part of a sequence has to do the same from where the first part leads. -/
theorem bind (h : Mirrored c act m)
    (hf : ∀ a m', act m = .ok a m' → act m.bare = .ok a m'.bare → m'.Equipped c →
      Mirrored c (f a) m') : Mirrored c (act >>= f) m := by
  rcases h.cases with ⟨a, m', hact, hbare, hm'⟩ | ⟨e, e', m', hact, hbare, hm', he⟩
  · have hnext := hf a m' hact hbare hm'
    unfold Mirrored at hnext ⊢
    rwa [bind_ok hact, bind_ok hbare]
  · exact .error (bind_error hact) (bind_error hbare) hm' he

end Mirrored

namespace Quiet

theorem pure (a : α) : Quiet c α (Pure.pure a) :=
  fun m hm => Mirrors.ok a m hm

theorem bind (h : Quiet c α act) (hf : ∀ a, Quiet c β (f a)) : Quiet c β (act >>= f) :=
  fun m hm => (h m hm).bind fun a m' _ _ hm' => hf a m' hm'

theorem update (g : Registers → Registers) : Quiet c Unit (modifyRegisters g) :=
  fun m hm => Mirrors.ok () { m with registers := g m.registers } hm

/-- The memory does not know of the peripherals. -/
theorem onMemory (act : MemoryM α) : Quiet c α (onMemory act) := by
  intro m hm
  cases hact : act m.memory with
  | ok a memory => exact .ok (onMemory_ok hact) (onMemory_ok hact) hm
  | error e memory => exact .error (onMemory_error hact) (onMemory_error hact) hm rfl

theorem read {address : Int} (h : Unanswered c address) : Quiet c Byte (read address) := by
  intro m hm
  have hsupply : m.io.bind (·.supply (word address)) = none := by
    obtain ⟨io, hio, rfl⟩ := Option.map_eq_some_iff.mp hm
    rw [hio, Option.bind_some, h.supply]
  have hread : Machine.read address m = Machine.onMemory (Memory.read address) m := by
    rw [Machine.read, bind_ok (get_ok m), hsupply]
  have hmemory := onMemory (Memory.read address) m hm
  unfold Mirrored at hmemory ⊢
  rw [hread]
  exact hmemory

/-- What a write shows on the screen stays there. -/
theorem write (hwidth : 0 < c.screenWidth) (address value : Int) :
    Quiet c Unit (write address value) := by
  refine (onMemory _).bind fun _ m hm => ?_
  obtain ⟨io, hio, rfl⟩ := Option.map_eq_some_iff.mp hm
  have hcolumns : io.config.screenWidth ≠ 0 := by omega
  have hplot : onIo (Io.plot (word address) value) m =
      .ok () { m with io := some (io.plotted (word address) value) } := by
    simp only [onIo, hio, Io.plot_ok hcolumns]
  exact .ok hplot rfl (by simp [Equipped])

end Quiet

theorem quiet_compositional (hwidth : 0 < c.screenWidth) :
    Compositional (Unanswered c) (Quiet c) where
  pure := .pure
  bind := .bind
  registers _ hf := fun m hm => hf m.registers m hm
  counter _ hf := fun m hm => hf m.memory.pc m hm
  pointer _ hf := fun m hm => hf m.memory.sp m hm
  update g _ := .update g
  read _ h := .read h
  write := .write hwidth
  fetch := .onMemory _
  push _ := .onMemory _
  pull := .onMemory _
  pushPc := .onMemory _
  ret := .onMemory _
  jump _ := .onMemory _
  point _ := .onMemory _

end Machine

open Machine

namespace Mode

/-- The addresses at which a word is looked up through a pointer; the second is not asked if the
first fails. -/
def lookups (pointer : MachineM Int) (next : Int → Int) (m : Machine) : List Int :=
  match pointer m with
  | .error _ _ => []
  | .ok lo m =>
    match read lo m with
    | .error _ _ => [lo]
    | .ok _ _ => [lo, next lo]

/-- The addresses that a mode reads to find the effective address, besides the operand bytes. -/
def reads : Mode → Machine → List Int
  | indirect => lookups fetchWord nextInPage
  | indexedIndirect => lookups (zeroPageIndexed .x) fun pointer => (pointer + 1) % 0x100
  | indirectIndexed => lookups (do return ((← fetch) : Int)) fun pointer => (pointer + 1) % 0x100
  | _ => fun _ => []

variable {c : IoConfig} {m : Machine} {pointer : MachineM Int} {next : Int → Int}

theorem lookups_bare (h : Mirrored c pointer m)
    (hr : Untouched c (lookups pointer next m) ∨ Untouched c (lookups pointer next m.bare)) :
    lookups pointer next m.bare = lookups pointer next m := by
  unfold lookups at hr ⊢
  rcases h.cases with ⟨lo, m', hp, hbare, hm'⟩ | ⟨e, e', m', hp, hbare, -⟩
  · rw [hp, hbare] at hr ⊢
    dsimp only at hr ⊢
    have hlo : Unanswered c lo := by
      rcases hr with hr | hr <;>
      · split at hr <;> exact hr lo (by simp)
    rcases (Quiet.read hlo m' hm').cases with ⟨b, _, h₁, h₂, -⟩ | ⟨_, _, _, h₁, h₂, -⟩ <;>
      rw [h₁, h₂]
  · rw [hp, hbare]

/-- A lookup that no peripheral answers does the same on the bare machine. -/
theorem mirrored_lookup {g : Int → MachineM (Option Int)} (hp : Quiet c Int pointer)
    (hg : ∀ w, Quiet c (Option Int) (g w)) (hm : m.Equipped c)
    (hr : Untouched c (lookups pointer next m)) :
    Mirrored c (pointer >>= fun lo => readWord lo (next lo) >>= g) m := by
  refine (hp m hm).bind fun lo m₁ hlo _ hm₁ => ?_
  simp only [lookups, hlo] at hr
  have hquiet : Unanswered c lo := by
    split at hr <;> exact hr lo (by simp)
  have hword : Mirrored c (readWord lo (next lo)) m₁ := by
    refine (Quiet.read hquiet m₁ hm₁).bind fun l m₂ hl _ hm₂ => ?_
    rw [hl] at hr
    exact (Quiet.read (hr (next lo) (by simp))).bind (fun h => .pure _) m₂ hm₂
  exact hword.bind fun w m₂ _ _ hm₂ => hg w m₂ hm₂

theorem mirrored_resolve (hwidth : 0 < c.screenWidth) (mode : Mode) (hm : m.Equipped c)
    (hr : Untouched c (mode.reads m)) : Mirrored c mode.resolve m := by
  have hc := quiet_compositional hwidth
  cases mode with
  | indirect => exact mirrored_lookup hc.fetchWord (fun w => .pure _) hm hr
  | indexedIndirect => exact mirrored_lookup (hc.zeroPageIndexed .x) (fun w => .pure _) hm hr
  | indirectIndexed =>
    refine mirrored_lookup (hc.bind hc.fetch fun b => .pure _) (fun base => ?_) hm hr
    exact hc.registers (fun r => pure (some (word (base + r.get .y)))) fun r => .pure _
  | _ => exact hc.resolve _ (by simp) m hm

theorem reads_bare (hwidth : 0 < c.screenWidth) (mode : Mode) (hm : m.Equipped c)
    (hr : Untouched c (mode.reads m) ∨ Untouched c (mode.reads m.bare)) :
    mode.reads m.bare = mode.reads m := by
  have hc := quiet_compositional hwidth
  cases mode with
  | indirect => exact lookups_bare (hc.fetchWord m hm) hr
  | indexedIndirect => exact lookups_bare (hc.zeroPageIndexed .x m hm) hr
  | indirectIndexed => exact lookups_bare (hc.bind hc.fetch (fun b => .pure _) m hm) hr
  | _ => rfl

end Mode

namespace Machine

open Mode

variable {c : IoConfig} {m : Machine}

theorem quiet_describe (opcode : Byte) (i : Instruction) (address : Option Int)
    (start next : Int) : Quiet c Decoded (describe opcode i address start next) := by
  refine (Quiet.onMemory _).bind fun operand => ?_
  cases i.mode.format (byteValues operand) next with
  | error e => exact fun m hm => Mirrors.error m hm rfl
  | ok text => exact .pure _

theorem mirrored_decode (hwidth : 0 < c.screenWidth) {opcode : Byte} (place : Int)
    (hm : m.Equipped c) (hr : ∀ i ∈ m.table.get? opcode, Untouched c (i.mode.reads m)) :
    Mirrored c (decode opcode place) m := by
  cases hi : m.table.get? opcode with
  | none =>
    exact .error (decode_undefined hi place) (decode_undefined (m := m.bare) hi place) hm rfl
  | some i =>
    have hdecode : Mirrored c (decodeOperand opcode i m.memory.pc) m := by
      refine (mirrored_resolve hwidth i.mode hm (hr i hi)).bind fun address m₁ _ _ hm₁ => ?_
      exact (quiet_compositional hwidth).counter
        (fun next => describe opcode i address m.memory.pc next)
        (fun next => quiet_describe opcode i address m.memory.pc next) m₁ hm₁
    unfold Mirrored at hdecode ⊢
    rwa [decode_defined hi, decode_defined (m := m.bare) hi]

theorem quiet_execute (hwidth : 0 < c.screenWidth) (d : Decoded)
    (hr : Untouched c (d.instruction.mnemonic.reads d.address)) : Quiet c Unit (execute d) := by
  have hbody : Quiet c Unit (d.instruction.mnemonic.execute d.address) := by
    refine (quiet_compositional hwidth).execute _ hr fun _ => ⟨fun α m hm => ?_, fun m hm => ?_⟩
    · exact Mirrors.error m hm rfl
    · exact Mirrors.error m hm rfl
  refine hbody.bind fun _ => ?_
  split
  · exact fun m hm => Mirrors.ok () { m with status := .finished } hm
  · exact .pure ()

theorem quiet_report (d : Decoded) : Quiet c Snapshot (report d) :=
  fun m hm => Mirrors.ok _ { m.cleared with steps := m.steps + 1 } hm

/-- The addresses that a fetched instruction reads: those where its mode looks for the effective
address, and those that its body reads. -/
def operandReads (opcode : Byte) (place : Int) (m : Machine) : List Int :=
  ((m.table.get? opcode).map (·.mode.reads m)).getD [] ++
    match decode opcode place m with
    | .error _ _ => []
    | .ok d _ => d.instruction.mnemonic.reads d.address

/-- The addresses that a step reads besides fetches and the stack. -/
def dataReads (m : Machine) : List Int :=
  if m.isHalted then []
  else match Mode.fetch m.cleared with
    | .error _ _ => []
    | .ok opcode m₁ => operandReads opcode m.memory.pc m₁

theorem untouched_mode {opcode : Byte} {place : Int} {i : Instruction}
    (hr : Untouched c (operandReads opcode place m)) (hi : m.table.get? opcode = some i) :
    Untouched c (i.mode.reads m) :=
  fun address ha => hr address (by simp [operandReads, hi, ha])

/-- A step whose data reads no peripheral answers does the same on the bare machine. -/
theorem mirrored_step (hwidth : 0 < c.screenWidth) (hm : m.Equipped c)
    (hr : Untouched c m.dataReads) : Mirrored c step m := by
  cases hh : m.isHalted with
  | true => exact .ok (step_halted hh) (step_halted (m := m.bare) hh) hm
  | false =>
    have hcycle : Mirrored c (do
        let opcode ← Mode.fetch
        let d ← decode opcode m.memory.pc
        execute d
        report d) m.cleared := by
      refine (Quiet.onMemory Memory.fetch m.cleared hm).bind fun opcode m₁ hf _ hm₁ => ?_
      have hr : Untouched c (operandReads opcode m.memory.pc m₁) := by
        have hf : Mode.fetch m.cleared = .ok opcode m₁ := hf
        simpa [dataReads, hh, hf] using hr
      refine (mirrored_decode hwidth m.memory.pc hm₁ fun i hi => untouched_mode hr hi).bind
        fun d m₂ hd _ hm₂ => ?_
      have hbody : Untouched c (d.instruction.mnemonic.reads d.address) :=
        fun address ha => hr address (by simp [operandReads, hd, ha])
      exact (quiet_execute hwidth d hbody).bind (fun _ => quiet_report d) m₂ hm₂
    unfold Mirrored at hcycle ⊢
    rwa [step_running hh, step_running (m := m.bare) hh]

theorem operandReads_bare (hwidth : 0 < c.screenWidth) {opcode : Byte} {place : Int}
    (hm : m.Equipped c)
    (hr : Untouched c (operandReads opcode place m) ∨
      Untouched c (operandReads opcode place m.bare)) :
    operandReads opcode place m.bare = operandReads opcode place m := by
  cases hi : m.table.get? opcode with
  | none =>
    simp [operandReads, hi, decode_undefined hi, decode_undefined (m := m.bare) hi]
  | some i =>
    have hmode : i.mode.reads m.bare = i.mode.reads m :=
      i.mode.reads_bare hwidth hm (hr.imp (untouched_mode · hi) (untouched_mode (m := m.bare) · hi))
    have hquiet : Untouched c (i.mode.reads m) := by
      rcases hr with hr | hr
      · exact untouched_mode hr hi
      · exact hmode ▸ untouched_mode (m := m.bare) hr hi
    have hdecode : Mirrored c (decode opcode place) m := by
      refine mirrored_decode hwidth place hm fun j hj => ?_
      cases hi.symm.trans hj
      exact hquiet
    rcases hdecode.cases with ⟨d, _, h, hbare, -⟩ | ⟨_, _, _, h, hbare, -⟩ <;>
      simp [operandReads, hi, hmode, h, hbare]

/-- The bare machine makes the same data reads, if no peripheral answers those of either. -/
theorem dataReads_bare (hwidth : 0 < c.screenWidth) (hm : m.Equipped c)
    (hr : Untouched c m.dataReads ∨ Untouched c m.bare.dataReads) :
    m.bare.dataReads = m.dataReads := by
  have hhalted : m.bare.isHalted = m.isHalted := rfl
  have hcleared : m.bare.cleared = m.cleared.bare := rfl
  cases hh : m.isHalted with
  | true => simp [dataReads, hhalted, hh]
  | false =>
    rcases (Quiet.onMemory Memory.fetch m.cleared hm).cases with
      ⟨opcode, m₁, hf, hbare, hm₁⟩ | ⟨_, _, _, hf, hbare, -⟩
    · have hf : Mode.fetch m.cleared = .ok opcode m₁ := hf
      have hbare : Mode.fetch m.bare.cleared = .ok opcode m₁.bare := hbare
      simp only [dataReads, hhalted, hh, hf, hbare, bare_memory] at hr ⊢
      exact operandReads_bare hwidth hm₁ hr
    · have hf : Mode.fetch m.cleared = _ := hf
      have hbare : Mode.fetch m.bare.cleared = _ := hbare
      simp only [dataReads, hhalted, hf, hbare]

/-- Two machines agree on everything but the peripherals and the log, which a step empties first. -/
structure Agree (m p : Machine) : Prop where
  mappings : p.memory.bus.mappings = m.memory.bus.mappings
  origin : p.memory.origin = m.memory.origin
  pc : p.memory.pc = m.memory.pc
  sp : p.memory.sp = m.memory.sp
  registers : p.registers = m.registers
  table : p.table = m.table
  status : p.status = m.status
  steps : p.steps = m.steps

/-- What a caller can tell of `n` steps one after the other: a snapshot or the kind of a failure for
each. -/
def trace : Nat → Machine → List (Except FaultKind Snapshot)
  | 0, _ => []
  | n + 1, m => (outcome step m).mapError Fault.kind :: trace n (after step m)

variable {p : Machine}

theorem agree_bare (m : Machine) : Agree m m.bare := ⟨rfl, rfl, rfl, rfl, rfl, rfl, rfl, rfl⟩

theorem Agree.cleared (h : Agree m p) (hp : p.io = none) : p.cleared = m.cleared.bare := by
  obtain ⟨⟨⟨mappings, log⟩, origin, pc, sp⟩, io, registers, table, status, steps⟩ := m
  obtain ⟨⟨⟨mappings', log'⟩, origin', pc', sp'⟩, io', registers', table', status', steps'⟩ := p
  obtain ⟨rfl, rfl, rfl, rfl, rfl, rfl, rfl, rfl⟩ := h
  cases hp
  rfl

theorem step_cleared (m : Machine) : step m.cleared = step m := rfl

theorem dataReads_cleared (m : Machine) : m.cleared.dataReads = m.dataReads := rfl

/-- Machines that agree take a step of which a caller cannot tell on which of them it was taken, and
agree again, if no peripheral answers the data reads of either. -/
theorem Agree.step (h : Agree m p) (hwidth : 0 < c.screenWidth) (hm : m.Equipped c)
    (hp : p.io = none) (hr : Untouched c m.dataReads ∨ Untouched c p.dataReads) :
    (outcome step m).mapError Fault.kind = (outcome step p).mapError Fault.kind ∧
      p.dataReads = m.dataReads ∧ Agree (after step m) (after step p) ∧
      (after step m).Equipped c ∧ (after step p).io = none := by
  have hcleared : m.cleared.Equipped c := hm
  rw [← dataReads_cleared m, ← dataReads_cleared p, h.cleared hp] at hr ⊢
  have hreads := dataReads_bare hwidth hcleared hr
  have hquiet : Untouched c m.cleared.dataReads := by
    rcases hr with hr | hr
    · exact hr
    · exact hreads ▸ hr
  rcases (mirrored_step hwidth hcleared hquiet).cases with
    ⟨s, m', hs, hbare, hm'⟩ | ⟨e, e', m', hs, hbare, hm', he⟩
  · rw [step_cleared] at hs
    rw [← h.cleared hp, step_cleared] at hbare
    rw [outcome_ok hs, outcome_ok hbare, after_ok hs, after_ok hbare]
    exact ⟨rfl, hreads, agree_bare m', hm', rfl⟩
  · rw [step_cleared] at hs
    rw [← h.cleared hp, step_cleared] at hbare
    rw [outcome_error hs, outcome_error hbare, after_error hs, after_error hbare]
    exact ⟨congrArg Except.error he, hreads, agree_bare m', hm', rfl⟩

/-- Machines that agree take the same steps, as long as no peripheral answers the data reads of
either. -/
theorem Agree.run (h : Agree m p) (hwidth : 0 < c.screenWidth) (hm : m.Equipped c)
    (hp : p.io = none) (n : Nat)
    (hr : (∀ i < n, Untouched c ((after Machine.step)^[i] m).dataReads) ∨
      ∀ i < n, Untouched c ((after Machine.step)^[i] p).dataReads) :
    trace n m = trace n p ∧
      (∀ i < n, ((after Machine.step)^[i] p).dataReads = ((after Machine.step)^[i] m).dataReads) ∧
      Agree ((after Machine.step)^[n] m) ((after Machine.step)^[n] p) := by
  induction n generalizing m p with
  | zero => exact ⟨rfl, by simp, h⟩
  | succ n ih =>
    have hfirst : Untouched c m.dataReads ∨ Untouched c p.dataReads :=
      hr.imp (fun hr => hr 0 (by omega)) (fun hr => hr 0 (by omega))
    obtain ⟨houtcome, hreads, hagree, hm', hp'⟩ := h.step hwidth hm hp hfirst
    obtain ⟨htrace, hrest, hend⟩ := ih hagree hm' hp' <|
      hr.imp (fun hr i hi => hr (i + 1) (by omega)) (fun hr i hi => hr (i + 1) (by omega))
    refine ⟨by rw [trace, trace, houtcome, htrace], fun i hi => ?_, hend⟩
    cases i with
    | zero => exact hreads
    | succ i => exact hrest i (by omega)

/-- Peripherals that no data read of a run finds have no part in it. The machine with them and a
machine without, agreeing at first, give the same snapshots or failures of the same kinds at the
same steps, and agree in the end; and so does the first machine with any other screen, key and
random source at the same places. -/
theorem trace_transparent {io : Io} (hio : m.io = some io) (hwidth : 0 < io.config.screenWidth)
    (hp : p.io = none) (h : Agree m p) (n : Nat)
    (hr : ∀ i < n, ∀ address ∈ ((after step)^[i] m).dataReads,
      word address ≠ io.config.randomAddress ∧ word address ≠ io.config.keypressAddress) :
    trace n m = trace n p ∧ Agree ((after step)^[n] m) ((after step)^[n] p) ∧
      ∀ io' : Io, io'.config = io.config →
        trace n { m with io := some io' } = trace n m ∧
        Agree ((after step)^[n] { m with io := some io' }) ((after step)^[n] p) := by
  have hm : m.Equipped io.config := by simp [Equipped, hio]
  obtain ⟨htrace, hreads, hend⟩ := h.run hwidth hm hp n (.inl hr)
  refine ⟨htrace, hend, fun io' hconfig => ?_⟩
  have hm' : Equipped io.config { m with io := some io' } := by simp [Equipped, hconfig]
  have h' : Agree { m with io := some io' } p :=
    ⟨h.mappings, h.origin, h.pc, h.sp, h.registers, h.table, h.status, h.steps⟩
  have hr' : ∀ i < n, Untouched io.config ((after step)^[i] p).dataReads :=
    fun i hi => hreads i hi ▸ hr i hi
  obtain ⟨htrace', -, hend'⟩ := h'.run hwidth hm' hp n (.inr hr')
  exact ⟨htrace'.trans htrace.symm, hend'⟩

/-- A program that loads a byte, shows it and ends reads nothing but its own operand. -/
theorem trace_transparent_shown :
    let program : Ram := ⟨#[0xA9, 0x01, 0x8D, 0x00, 0x02, 0x00]⟩
    let bus : Bus := { mappings := [⟨0x0600, 0x0605, .ram program⟩, ⟨0x0200, 0x0200, .ram ⟨#[0]⟩⟩] }
    let p : Machine := { memory := { bus } }
    let m : Machine := { p with
      io := some { console := .screen (.blank 32 32), random := ⟨fun _ => 7, 0⟩ } }
    (∀ i < 3, ∀ address ∈ ((after step)^[i] m).dataReads,
      word address ≠ 0xFE ∧ word address ≠ 0xFF) ∧ trace 3 m = trace 3 p := by
  intro program bus p m
  have hr : ∀ i < 3, ∀ address ∈ ((after step)^[i] m).dataReads,
      word address ≠ 0xFE ∧ word address ≠ 0xFF := by
    decide +kernel
  exact ⟨hr, (trace_transparent rfl (by decide) rfl (agree_bare m) 3 hr).1⟩

end Machine

end Micro6502
