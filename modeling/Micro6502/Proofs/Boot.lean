import Micro6502.Proofs.Reset
import Micro6502.Proofs.Transparency

namespace Micro6502.SystemConfig

open Machine

variable {c : SystemConfig}

def boot (c : SystemConfig) (random : Random) (program : List Int) : Machine :=
  (c.build (.screen c.screen) random .standard).performAll [.load program none]

theorem Equips.equipped {m : Machine} (h : c.Equips m) : m.Equipped c.io := by
  obtain ⟨io, hio, hplaces⟩ := h.peripherals
  simp [Equipped, hio, hplaces.config]

/-- Whatever a host has done to it, a machine is one of its configuration. -/
theorem performAll_equips (c : SystemConfig) (random : Random) (table : OpcodeTable)
    (commands : List Command) :
    c.Equips ((c.build (.screen c.screen) random table).performAll commands) :=
  Command.performAll_keeps (fun _ hm k _ => hm.perform k) (build_equips c random table)

structure Boots (c : SystemConfig) (random : Random) (program : List Int) (m : Machine) :
    Prop where
  equips : c.Equips m
  status : m.status = .running
  table : m.table = .standard
  registers : m.registers = c.initial.registers.foldl InitialState.setNamed {}
  io : m.io = some { config := c.io, console := .screen c.screen, random }
  pc : m.memory.pc = word c.initial.pc
  cell : ∀ i : Fin program.length,
    m.memory.cell (c.origin + (i : Nat)) = byte (program.get i)

theorem boot_boots (c : SystemConfig) (random : Random) {program : List Int}
    (hlength : program.length ≤ 0x10000) : c.Boots random program (c.boot random program) := by
  have hflat : (c.build (.screen c.screen) random .standard).memory.Flat := Bus.flat_blank
  have hboot : c.boot random program =
      let m := c.build (.screen c.screen) random .standard
      { m with memory := m.memory.loaded c.origin program } :=
    (Command.perform_load _ program none).trans
      (after_ok (onMemory_ok (Memory.load_flat hflat program none)))
  have hpc : ((c.build (.screen c.screen) random .standard).memory.loaded c.origin program).pc =
      word c.initial.pc := by
    rw [Memory.loaded_eq]
    rfl
  refine ⟨performAll_equips c random .standard _, ?_, ?_, ?_, ?_, ?_, ?_⟩
  all_goals rw [hboot]
  · rfl
  · rfl
  · rfl
  · rfl
  · exact hpc
  · exact Memory.cell_loaded_at hflat c.origin hlength

/-- A program is started at its first byte. -/
theorem Boots.found {random : Random} {opcode : Int} {rest : List Int} {m : Machine}
    {i : Instruction} (hm : c.Boots random (opcode :: rest) m)
    (hstart : word c.initial.pc = c.origin)
    (hentry : OpcodeTable.standard.get? (byte opcode) = some i) :
    m.table.get? (m.memory.cell m.memory.pc) = some i := by
  have hopcode : m.memory.cell (c.origin + (0 : Nat)) = byte opcode := hm.cell ⟨0, by simp⟩
  rw [Int.natCast_zero, Int.add_zero] at hopcode
  rw [hm.table, hm.pc, hstart, hopcode, hentry]

end Micro6502.SystemConfig
