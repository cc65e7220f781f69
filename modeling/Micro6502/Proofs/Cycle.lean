import Micro6502.Proofs.Outcome
import Micro6502.Step

namespace Micro6502.Machine

variable {m m' : Machine}

def cleared (m : Machine) : Machine :=
  { m with memory := { m.memory with bus := { m.memory.bus with log := #[] } } }

@[simp] theorem cleared_cleared (m : Machine) : m.cleared.cleared = m.cleared := rfl

/-- What a step does last: it counts itself and takes the log. -/
def report (d : Decoded) : MachineM Snapshot := do
  modify fun m => { m with steps := m.steps + 1 }
  let accesses ← onMemory Memory.takeLog
  let m ← get
  return { state := m.state, decoded := some d, steps := m.steps, accesses }

theorem report_eq (d : Decoded) (m : Machine) :
    report d m =
      .ok { state := m.state, decoded := some d, steps := m.steps + 1,
            accesses := m.memory.bus.log.toList }
        { m.cleared with steps := m.steps + 1 } := rfl

theorem running_iff : m.isHalted = false ↔ m.status = .running := by
  cases hs : m.status <;> simp [isHalted, hs, Status.isHalted]

/-- A step drops the log that it finds, and does not look at it. -/
theorem step_congr {p : Machine} (h : p.cleared = m.cleared) : step p = step m := by
  have htake (q : Machine) :
      onMemory Memory.takeLog q = .ok q.memory.bus.log.toList q.cleared := rfl
  rw [step, bind_ok (htake p), bind_ok (htake m), h]

theorem step_halted (h : m.isHalted = true) :
    step m = .ok { state := m.state, decoded := none, steps := m.steps, accesses := [] }
      m.cleared := by
  change (if m.isHalted = true then _ else _ : MachineM Snapshot) m.cleared = _
  rw [if_pos h]
  rfl

/-- A step fails on a running processor only. -/
theorem running_of_error {e : Fault} (h : outcome step m = .error e) : m.status = .running := by
  cases hm : m.isHalted with
  | true => simp [outcome_ok (step_halted hm)] at h
  | false => exact running_iff.mp hm

theorem step_running (h : m.isHalted = false) :
    step m = (do
      let opcode ← Mode.fetch
      let d ← decode opcode m.memory.pc
      execute d
      report d) m.cleared := by
  change (if m.isHalted = true then _ else _ : MachineM Snapshot) m.cleared = _
  rw [if_neg (by simp [h])]
  rfl

theorem decode_undefined {opcode : Byte} (h : m.table.get? opcode = none) (place : Int) :
    decode opcode place m =
      .error (.unknownOpcode opcode place) { m with status := .failed opcode place } := by
  rw [decode, bind_ok (get_ok m), h]
  rfl

/-- Tells of a known instruction whose operand bytes lie between `start` and `next`. -/
def describe (opcode : Byte) (i : Instruction) (address : Option Int) (start next : Int) :
    MachineM Decoded := do
  let operand ← onMemory (Memory.peekMany start (word (next - start)).toNat)
  match i.mode.format (byteValues operand) next with
  | .error e => throw e
  | .ok text => return { opcode, instruction := i, text, operand, address }

def decodeOperand (opcode : Byte) (i : Instruction) (start : Int) : MachineM Decoded := do
  let address ← i.mode.resolve
  describe opcode i address start (← get).memory.pc

def decodeSlot (opcode : Byte) (place : Int) : Option Instruction → MachineM Decoded
  | none => do
    setStatus (.failed opcode place)
    throw (.unknownOpcode opcode place)
  | some i => do decodeOperand opcode i (← get).memory.pc

theorem decode_eq (opcode : Byte) (place : Int) :
    decode opcode place = get >>= fun m => decodeSlot opcode place (m.table.get? opcode) := rfl

theorem decode_defined {opcode : Byte} {i : Instruction} (h : m.table.get? opcode = some i)
    (place : Int) : decode opcode place m = decodeOperand opcode i m.memory.pc m := by
  rw [decode, bind_ok (get_ok m), h]
  rfl

def carryOut (opcode : Byte) (place : Int) : MachineM Decoded := do
  let d ← decode opcode place
  execute d
  return d

theorem carryOut_report (opcode : Byte) (place : Int) :
    (do let d ← decode opcode place; execute d; report d) = carryOut opcode place >>= report := by
  simp only [carryOut, bind_assoc, pure_bind]

/-- An instruction that was decoded is in the table, and its address is the resolved one. -/
theorem decode_ok {opcode : Byte} {place : Int} {d : Decoded}
    (h : decode opcode place m = .ok d m') :
    ∃ i address m₁, m.table.get? opcode = some i ∧ i.mode.resolve m = .ok address m₁ ∧
      d.instruction = i ∧ d.address = address := by
  cases hi : m.table.get? opcode with
  | none => simp [decode_undefined hi] at h
  | some i =>
    rw [decode_defined hi, decodeOperand, bind_eq_ok] at h
    obtain ⟨address, m₁, hr, h⟩ := h
    obtain ⟨_, _, ⟨⟩, h⟩ := bind_eq_ok.mp h
    obtain ⟨operand, m₂, hp, h⟩ := bind_eq_ok.mp h
    refine ⟨i, address, m₁, rfl, hr, ?_⟩
    cases ht : i.mode.format (byteValues operand) m₁.memory.pc with
    | error e =>
      rw [ht] at h
      cases h
    | ok text =>
      rw [ht] at h
      cases h
      exact ⟨rfl, rfl⟩

/-- A step ends well if the instruction that it decoded does. -/
theorem execute_report_ok {d : Decoded} {s : Snapshot}
    (h : (execute d >>= fun _ => report d) m = .ok s m') :
    ∃ m₁, execute d m = .ok () m₁ ∧ m' = { m₁.cleared with steps := m₁.steps + 1 } ∧
      s = { state := m₁.state, decoded := some d, steps := m₁.steps + 1,
            accesses := m₁.memory.bus.log.toList } := by
  obtain ⟨_, m₁, he, h⟩ := bind_eq_ok.mp h
  cases h
  exact ⟨m₁, he, rfl, rfl⟩

/-- A step that succeeds has found the processor halted, or has gone through the whole cycle. -/
theorem step_ok {s : Snapshot} (h : step m = .ok s m') :
    (m.isHalted = true ∧ m' = m.cleared ∧
      s = { state := m.state, decoded := none, steps := m.steps, accesses := [] }) ∨
    (m.isHalted = false ∧ ∃ opcode m₁ d m₂ m₃,
      Mode.fetch m.cleared = .ok opcode m₁ ∧ decode opcode m.memory.pc m₁ = .ok d m₂ ∧
      execute d m₂ = .ok () m₃ ∧ report d m₃ = .ok s m') := by
  cases hm : m.isHalted with
  | true =>
    rw [step_halted hm] at h
    cases h
    exact .inl ⟨rfl, rfl, rfl⟩
  | false =>
    rw [step_running hm, bind_eq_ok] at h
    obtain ⟨opcode, m₁, hf, h⟩ := h
    obtain ⟨d, m₂, hd, h⟩ := bind_eq_ok.mp h
    obtain ⟨_, m₃, he, h⟩ := bind_eq_ok.mp h
    exact .inr ⟨rfl, opcode, m₁, d, m₂, m₃, hf, hd, he, h⟩

/-- A snapshot shows the state in which the step ends. -/
theorem step_state {s : Snapshot} (h : step m = .ok s m') : s.state = m'.state := by
  rcases step_ok h with ⟨-, rfl, rfl⟩ | ⟨-, opcode, m₁, d, m₂, m₃, -, -, -, hreport⟩
  · rfl
  · cases hreport
    rfl

end Micro6502.Machine
