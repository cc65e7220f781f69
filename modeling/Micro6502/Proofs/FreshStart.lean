import Micro6502.Proofs.Command
import Micro6502.Proofs.Configuration
import Micro6502.Proofs.Sound

namespace Micro6502

open Machine

theorem word_eq_self (n : Int) : word n = n ↔ 0 ≤ n ∧ n ≤ 0xFFFF := by
  constructor
  · intro h
    exact h ▸ ⟨word_nonneg n, word_le n⟩
  · rintro ⟨h₀, h₁⟩
    exact word_of_range h₀ h₁

namespace Machine

/-- A command changes what a memory, a screen and a processor hold, but not what they are. -/
theorem Steady.perform {m₀ m : Machine} (h : Steady m₀ m) (k : Command) :
    Steady m₀ (k.perform m) := by
  refine Command.keeps (I := Steady m₀) ?_ h k ?_ ?_ ?_ ?_
  · intro m m' hm he
    exact hm.trans (he.steady hm.flat)
  · intro i _
    exact ⟨h.flat.move _ _, h.origin, h.table, h.config⟩
  · intro _
    exact ⟨h.flat.move _ _, h.origin, h.table, h.config⟩
  · intro values start _
    rw [after_ok (onMemory_ok (Memory.load_flat h.flat values start)), Memory.loaded_eq]
    exact ⟨h.flat.loaded _ values, h.origin, h.table, h.config⟩
  · intro key _
    refine ⟨h.flat, h.origin, h.table, ?_⟩
    rw [Command.perform_press, ← h.config]
    cases m.io <;> rfl

theorem performAll_steady {m : Machine} (h : m.memory.Flat) (commands : List Command) :
    Steady m (m.performAll commands) :=
  Command.performAll_keeps (fun _ hm k _ => hm.perform k) ⟨h, rfl, rfl, rfl⟩

end Machine

namespace SystemConfig

variable {entries : List (Data × Data)} {base : Option String} {c : SystemConfig}

/-- Without an initial state the processor is to start at the origin, with an empty stack and
registers. -/
theorem parse_initial (hc : parse entries base = .ok c)
    (hnone : Config.subsection entries "initial_state" = .ok []) :
    c.initial = { pc := c.origin } := by
  obtain ⟨opcodeTable, -, hc⟩ := except_bind_ok.mp hc
  obtain ⟨ioEntries, -, hc⟩ := except_bind_ok.mp hc
  obtain ⟨io, -, hc⟩ := except_bind_ok.mp hc
  obtain ⟨displayEntries, -, hc⟩ := except_bind_ok.mp hc
  obtain ⟨display, -, hc⟩ := except_bind_ok.mp hc
  obtain ⟨origin, -, hc⟩ := except_bind_ok.mp hc
  obtain ⟨initialEntries, hentries, hc⟩ := except_bind_ok.mp hc
  obtain ⟨initial, hinitial, hc⟩ := except_bind_ok.mp hc
  cases hentries.symm.trans hnone
  cases hinitial
  cases hc
  rfl

/-- The machine of a configuration without an initial state. -/
theorem build_at_origin (hinitial : c.initial = { pc := c.origin }) (console : Console)
    (random : Random) (table : OpcodeTable) :
    c.build console random table =
      { memory := { origin := c.origin, pc := word c.origin }
        io := some { config := c.io, console, random }
        table } := by
  rw [build, hinitial]
  rfl

/-- Whatever was done to a machine, after a reset it is the one that was built, but for the bytes, the
log and the peripherals, and for a counter that is the origin as it stands. -/
theorem reset_performAll (hinitial : c.initial = { pc := c.origin }) (console : Console)
    (random : Random) (table : OpcodeTable) (commands : List Command) :
    let b := c.build console random table
    let m := b.performAll commands
    after Machine.reset m =
      { b with memory := { b.memory with bus := m.memory.bus, pc := c.origin }, io := m.io } := by
  intro b m
  have hflat : b.memory.Flat := Bus.flat_blank
  have h : Steady b m := performAll_steady hflat commands
  have hreset : after Machine.reset m =
      { memory := { bus := m.memory.bus, origin := m.memory.origin, pc := m.memory.origin }
        io := m.io
        table := m.table } := rfl
  rw [hreset, h.origin, h.table, show b = _ from build_at_origin hinitial console random table]

/-- A machine whose configuration says nothing about the initial state is built with the counter at
the origin, as a word. Whatever a host has done to it, a reset succeeds and gives it the state, status
and step count that it was built with, and leaves the memory alone; only the counter is the origin as
the configuration has it. So the two states are one exactly for an origin that is a word. -/
theorem reset_rebuilds (hc : parse entries base = .ok c)
    (hnone : Config.subsection entries "initial_state" = .ok []) (console : Console)
    (random : Random) (table : OpcodeTable) (commands : List Command) :
    let b := c.build console random table
    let m := b.performAll commands
    let t := after Machine.reset m
    outcome Machine.reset m = .ok () ∧
    b.state.pc = word c.origin ∧
    t.state = { b.state with pc := c.origin } ∧
    t.status = b.status ∧ t.steps = b.steps ∧ t.memory.bus = m.memory.bus ∧
    (t.state = b.state ↔ 0 ≤ c.origin ∧ c.origin ≤ 0xFFFF) := by
  intro b m t
  have hinitial := parse_initial hc hnone
  have hbuilt : b = _ := build_at_origin hinitial console random table
  have ht : t = _ := reset_performAll hinitial console random table commands
  have hpc : b.state.pc = word c.origin := by rw [hbuilt]; rfl
  have hstate : t.state = { b.state with pc := c.origin } := by rw [ht]; rfl
  refine ⟨rfl, hpc, hstate, by rw [ht], by rw [ht], by rw [ht], ?_⟩
  rw [← word_eq_self, ← hpc]
  constructor
  · intro h
    rw [h] at hstate
    exact congrArg CpuState.pc hstate
  · intro h
    rw [hstate, ← h]

/-- Of what a program at $0300 and its host have put into the processor, a reset leaves nothing. -/
theorem reset_rebuilds_moved :
    ∃ c, parse [(.text "program_origin", .int 0x0300)] none = .ok c ∧
      Config.subsection [(.text "program_origin", .int 0x0300)] "initial_state" = .ok [] ∧
      ∀ console random,
        let b := c.build console random .standard
        let commands : List Command :=
          [.load [0xA9, 0x80, 0x48, 0x38] none, .run 3, .setRegister "X" 0x1FF, .step]
        (after Machine.reset (b.performAll commands)).state = b.state := by
  let c : SystemConfig := { origin := 0x0300, initial := { pc := 0x0300 } }
  have hc : parse [(.text "program_origin", .int 0x0300)] none = .ok c := rfl
  have hnone :
      Config.subsection [(.text "program_origin", .int 0x0300)] "initial_state" = .ok [] := rfl
  refine ⟨c, hc, hnone, fun console random => ?_⟩
  exact (reset_rebuilds hc hnone console random .standard _).2.2.2.2.2.2.mpr (by decide)

/-- With an origin beyond the last address the processor is built at $0600, but reset to $10600. -/
theorem reset_moves_on :
    ∃ c, parse [(.text "program_origin", .int 0x10600)] none = .ok c ∧
      Config.subsection [(.text "program_origin", .int 0x10600)] "initial_state" = .ok [] ∧
      ∀ console random table,
        let b := c.build console random table
        b.state.pc = 0x0600 ∧ (after Machine.reset b).state.pc = 0x10600 :=
  ⟨{ origin := 0x10600, initial := { pc := 0x10600 } }, rfl, rfl, fun _ _ _ => ⟨rfl, rfl⟩⟩

end SystemConfig

end Micro6502
