import Micro6502.Proofs.Effect
import Micro6502.Proofs.FlatMemory

namespace Micro6502

/-- A peripheral that answers leaves everything but the random source as it was. -/
theorem Io.supply_eq {io io' : Io} {address : Int} {b : Byte}
    (h : io.supply address = some (b, io')) : io' = { io with random := io'.random } := by
  unfold Io.supply at h
  split at h
  · cases h
    rfl
  · split at h
    · cases h
      rfl
    · cases h

def Io.plotted (io : Io) (address value : Int) : Io :=
  let c := io.config
  if c.screenStart ≤ address ∧ address ≤ c.screenEnd ∧ c.screenWidth ≠ 0 then
    let x := address.fmod c.screenWidth
    let y := (address - c.screenStart).fdiv c.screenWidth
    { io with
      console := io.console.update x y (value % 16)
      stopRequested := io.stopRequested || io.watches x y (value % 16) }
  else io

theorem Io.after_plot (io : Io) (address value : Int) :
    after (Io.plot address value) io = io.plotted address value := by
  simp only [after, Io.plot, Io.plotted]
  by_cases hr : io.config.screenStart ≤ address ∧ address ≤ io.config.screenEnd <;>
    by_cases hw : io.config.screenWidth = 0 <;> simp [hr, hw]

theorem Io.plot_ok {io : Io} (h : io.config.screenWidth ≠ 0) (address value : Int) :
    Io.plot address value io = .ok () (io.plotted address value) := by
  simp only [Io.plot, Io.plotted]
  by_cases hr : io.config.screenStart ≤ address ∧ address ≤ io.config.screenEnd <;>
    simp [hr, h]

theorem Io.plot_error {io io' : Io} {address value : Int} {e : Fault}
    (h : Io.plot address value io = .error e io') : e = .zeroWidth := by
  dsimp only [Io.plot] at h
  split at h
  · split at h
    · cases h
      rfl
    · cases h
  · cases h

@[simp] theorem Io.plotted_config (io : Io) (address value : Int) :
    (io.plotted address value).config = io.config := by
  simp only [Io.plotted]
  split <;> rfl

namespace Machine

variable {m : Machine}

theorem onMemory_ok {α : Type} {act : MemoryM α} {a : α} {memory : Memory}
    (h : act m.memory = .ok a memory) : onMemory act m = .ok a { m with memory } := by
  simp only [onMemory, h]

theorem onMemory_error {α : Type} {act : MemoryM α} {e : Fault} {memory : Memory}
    (h : act m.memory = .error e memory) : onMemory act m = .error e { m with memory } := by
  simp only [onMemory, h]

/-- The byte that a read gives: a peripheral's where one answers, else the memory's. -/
def seen (m : Machine) (address : Int) : Byte :=
  match m.io.bind (·.supply (word address)) with
  | some (b, _) => b
  | none => m.memory.cell address

def asked (m : Machine) (address : Int) : Machine :=
  match m.io.bind (·.supply (word address)) with
  | some (_, io) => { m with io := some io }
  | none => { m with memory := m.memory.noted address }

def shown (m : Machine) (address value : Int) : Machine :=
  { m with
    memory := m.memory.stored address value
    io := m.io.map (·.plotted (word address) value) }

theorem read_flat (h : m.memory.Flat) (address : Int) :
    read address m = .ok (m.seen address) (m.asked address) := by
  unfold seen asked
  rw [read, bind_ok (get_ok m)]
  cases m.io.bind (·.supply (word address)) with
  | some answer => rfl
  | none => exact onMemory_ok (Memory.read_flat h address)

/-- A read changes either the random source or the log. -/
theorem asked_cases (m : Machine) (address : Int) :
    (∃ io random, m.io = some io ∧ m.asked address = { m with io := some { io with random } }) ∨
      m.asked address = { m with memory := m.memory.noted address } := by
  unfold asked
  cases hs : m.io.bind (·.supply (word address)) with
  | none => exact .inr rfl
  | some answer =>
    obtain ⟨io, hio, hanswer⟩ := Option.bind_eq_some_iff.mp hs
    exact .inl ⟨io, answer.2.random, hio, by rw [← Io.supply_eq hanswer]⟩

theorem after_onIo (act : EStateM Fault Io Unit) (m : Machine) :
    after (onIo act) m = { m with io := m.io.map (after act) } := by
  obtain ⟨memory, io, registers, table, status, steps⟩ := m
  cases io with
  | none => rfl
  | some io =>
    simp only [after, onIo]
    cases hact : act io <;> simp [after, hact]

theorem after_write (h : m.memory.Flat) (address value : Int) :
    after (write address value) m = m.shown address value := by
  rw [write, after_bind, onMemory_ok (Memory.write_flat h address value)]
  simp only [after_onIo, funext (Io.after_plot · (word address) value), shown]

theorem after_peekMany (h : m.memory.Flat) (start : Int) (count : Nat) :
    after (onMemory (Memory.peekMany start count)) m = m :=
  after_ok (onMemory_ok (Memory.peekMany_flat h start count))

theorem fetch_flat (h : m.memory.Flat) :
    Mode.fetch m = .ok (m.memory.cell m.memory.pc) { m with memory := m.memory.fetched } :=
  onMemory_ok (Memory.fetch_flat h)

theorem push_flat (h : m.memory.Flat) (value : Int) :
    onMemory (Memory.push value) m = .ok () { m with memory := m.memory.pushed value } :=
  onMemory_ok (Memory.push_flat h value)

theorem pull_flat (h : m.memory.Flat) :
    onMemory Memory.pull m =
      .ok (m.memory.cell (stackBase + (m.memory.sp + 1) % 0x100))
        { m with memory := m.memory.pulled } :=
  onMemory_ok (Memory.pull_flat h)

/-- What elementary effects make of a machine with flat memory. -/
inductive Change (m : Machine) : Machine → Prop
  | same : Change m m
  | cleared : Change m { m with memory := m.memory.cleared }
  | fetched : Change m { m with memory := m.memory.fetched }
  | noted (address : Int) : Change m { m with memory := m.memory.noted address }
  | answered (io : Io) (random : Random) (hio : m.io = some io) :
      Change m { m with io := some { io with random } }
  | shown (address value : Int) : Change m (m.shown address value)
  | pushed (value : Int) : Change m { m with memory := m.memory.pushed value }
  | pulled : Change m { m with memory := m.memory.pulled }
  | jumped (address : Int) : Change m { m with memory := { m.memory with pc := word address } }
  | pointed (b : Byte) : Change m { m with memory := { m.memory with sp := b } }
  | updated (r : Registers) (hr : m.registers.Update r) : Change m { m with registers := r }
  | halted (s : Status) : Change m { m with status := s }
  | counted : Change m { m with steps := m.steps + 1 }

theorem Effect.change {m' : Machine} (h : m.memory.Flat) (he : Effect m m') : Change m m' := by
  cases he with
  | takeLog => exact .cleared
  | peek start count =>
    rw [after_peekMany h]
    exact .same
  | fetch =>
    rw [after_ok (fetch_flat h)]
    exact .fetched
  | read address =>
    rw [after_ok (read_flat h address)]
    rcases m.asked_cases address with ⟨io, random, hio, he⟩ | he
    · rw [he]
      exact .answered io random hio
    · rw [he]
      exact .noted address
  | write address value =>
    rw [after_write h]
    exact .shown address value
  | push value =>
    rw [after_ok (push_flat h value)]
    exact .pushed value
  | pull =>
    rw [after_ok (pull_flat h)]
    exact .pulled
  | jump address => exact .jumped address
  | point b => exact .pointed b
  | update r hr => exact .updated r hr
  | halt s halted => exact .halted s
  | count => exact .counted

structure Steady (m m' : Machine) : Prop where
  flat : m'.memory.Flat
  origin : m'.memory.origin = m.memory.origin
  table : m'.table = m.table
  config : m'.io.map (·.config) = m.io.map (·.config)

theorem Steady.trans {m₁ m₂ : Machine} (h : Steady m m₁) (h' : Steady m₁ m₂) : Steady m m₂ :=
  ⟨h'.flat, h'.origin.trans h.origin, h'.table.trans h.table, h'.config.trans h.config⟩

theorem Change.steady {m' : Machine} (h : m.memory.Flat) (hc : Change m m') : Steady m m' := by
  cases hc with
  | same => exact ⟨h, rfl, rfl, rfl⟩
  | cleared => exact ⟨h.cleared, rfl, rfl, rfl⟩
  | fetched => exact ⟨h.fetched, rfl, rfl, rfl⟩
  | noted address => exact ⟨h.noted address, rfl, rfl, rfl⟩
  | answered io random hio => exact ⟨h, rfl, rfl, by simp [hio]⟩
  | shown address value =>
    exact ⟨h.stored address value, rfl, rfl, by simp [Machine.shown, Function.comp_def]⟩
  | pushed value => exact ⟨h.pushed value, rfl, rfl, rfl⟩
  | pulled => exact ⟨h.pulled, rfl, rfl, rfl⟩
  | jumped address => exact ⟨h.move _ _, rfl, rfl, rfl⟩
  | pointed b => exact ⟨h.move _ _, rfl, rfl, rfl⟩
  | updated r hr => exact ⟨h, rfl, rfl, rfl⟩
  | halted s => exact ⟨h, rfl, rfl, rfl⟩
  | counted => exact ⟨h, rfl, rfl, rfl⟩

theorem Effect.steady {m' : Machine} (h : m.memory.Flat) (he : Effect m m') : Steady m m' :=
  (he.change h).steady h

/-- No access to the machine can fail. -/
structure Sound (m : Machine) : Prop where
  flat : m.memory.Flat
  columns : ∀ c ∈ m.io.map (·.config), c.screenWidth ≠ 0

theorem write_sound (h : m.Sound) (address value : Int) :
    write address value m = .ok () (m.shown address value) := by
  rw [write, bind_ok (onMemory_ok (Memory.write_flat h.flat address value))]
  obtain ⟨memory, io, registers, table, status, steps⟩ := m
  cases io with
  | none => rfl
  | some io =>
    have hw : io.config.screenWidth ≠ 0 := h.columns io.config rfl
    simp only [onIo, Io.plot_ok hw, shown, Option.map_some]

/-- The screen alone can make a write fail, if it has no columns. -/
theorem write_error (h : m.memory.Flat) {address value : Int} {e : Fault} {m' : Machine}
    (hw : write address value m = .error e m') : e = .zeroWidth := by
  rw [write, bind_ok (onMemory_ok (Memory.write_flat h address value))] at hw
  obtain ⟨memory, io, registers, table, status, steps⟩ := m
  cases io with
  | none => cases hw
  | some io =>
    dsimp only [onIo] at hw
    split at hw
    · cases hw
    · rename_i hplot
      cases hw
      exact Io.plot_error hplot

/-- Effects leave memory flat, and the peripherals where they are. -/
theorem Sound.effect {m' : Machine} (h : m.Sound) (he : Effect m m') : m'.Sound :=
  ⟨(he.steady h.flat).flat, fun c hc => h.columns c ((he.steady h.flat).config ▸ hc)⟩

/-- From a machine with `I` the action leads to one with `I`, or fails as `Q` allows. -/
def Keeps (I : Machine → Prop) (Q : Fault → Prop) (α : Type) (act : MachineM α) : Prop :=
  ∀ m, I m → match act m with
    | .ok _ m' => I m'
    | .error e _ => Q e

namespace Keeps

variable {I : Machine → Prop} {Q : Fault → Prop} {α β : Type} {act : MachineM α}
  {f : α → MachineM β}

theorem pure (a : α) : Keeps I Q α (Pure.pure a) :=
  fun _ h => h

theorem get : Keeps I Q Machine MonadState.get :=
  fun _ h => h

theorem bind (h : Keeps I Q α act) (hf : ∀ a, Keeps I Q β (f a)) : Keeps I Q β (act >>= f) := by
  intro m hm
  have hm' := h m hm
  cases hact : act m with
  | ok a m' =>
    rw [hact] at hm'
    rw [bind_ok hact]
    exact hf a m' hm'
  | error e m' =>
    rw [hact] at hm'
    rw [bind_error hact]
    exact hm'

/-- An action that succeeds and does what an effect does. -/
theorem effect (hI : ∀ m m', I m → Effect m m' → I m')
    (hact : ∀ m, I m → ∃ a m', act m = .ok a m' ∧ Effect m m') : Keeps I Q α act := by
  intro m hm
  obtain ⟨a, m', hok, he⟩ := hact m hm
  rw [hok]
  exact hI m m' hm he

/-- Only a write can fail on flat memory, so it is all that has to be looked at. -/
theorem compositional (hI : ∀ m m', I m → Effect m m' → I m') (hflat : ∀ m, I m → m.memory.Flat)
    (hwrite : ∀ address value, Keeps I Q Unit (write address value)) :
    Compositional (fun _ => True) (Keeps I Q) := by
  have hpush (value : Int) : Keeps I Q Unit (onMemory (Memory.push value)) :=
    effect hI fun m hm => ⟨_, _, push_flat (hflat m hm) value,
      after_ok (push_flat (hflat m hm) value) ▸ .push value⟩
  have hpull : Keeps I Q Byte (onMemory Memory.pull) :=
    effect hI fun m hm => ⟨_, _, pull_flat (hflat m hm), after_ok (pull_flat (hflat m hm)) ▸ .pull⟩
  have hjump (address : Int) : Keeps I Q Unit (onMemory (Memory.jump address)) :=
    effect hI fun m _ => ⟨_, _, rfl, .jump address⟩
  exact {
    pure := pure
    bind := bind
    registers := fun _ hf => get.bind fun m => hf m.registers
    counter := fun _ hf => get.bind fun m => hf m.memory.pc
    pointer := fun _ hf => get.bind fun m => hf m.memory.sp
    update := fun f hf m hm => (does_update hf).keeps hI hm
    read := fun address _ => effect hI fun m hm => ⟨_, _, read_flat (hflat m hm) address,
      after_ok (read_flat (hflat m hm) address) ▸ .read address⟩
    write := hwrite
    fetch := effect hI fun m hm => ⟨_, _, fetch_flat (hflat m hm),
      after_ok (fetch_flat (hflat m hm)) ▸ .fetch⟩
    push := hpush
    pull := hpull
    pushPc := by
      rw [Memory.pushPc, onMemory_bind]
      refine bind (fun _ hm => hm) fun memory => ?_
      rw [onMemory_bind]
      exact (hpush _).bind fun _ => hpush _
    ret := by
      rw [Memory.ret, onMemory_bind]
      refine hpull.bind fun hi => ?_
      rw [onMemory_bind]
      exact hpull.bind fun lo => hjump _
    jump := hjump
    point := fun b => effect hI fun m _ => ⟨_, _, rfl, .point b⟩ }

end Keeps

end Machine

end Micro6502
