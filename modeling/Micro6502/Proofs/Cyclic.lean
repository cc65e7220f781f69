import Micro6502.Proofs.Compositional
import Micro6502.Proofs.Cycle

namespace Micro6502

open Machine

structure Cyclic (P : (α : Type) → MachineM α → Prop) : Prop
    extends Compositional (fun _ => True) P where
  slot : ∀ {α : Type} (opcode : Byte) (f : Option Instruction → MachineM α),
    (∀ slot, P α (f slot)) → P α (get >>= fun m => f (m.table.get? opcode))
  peek : ∀ start count, P (List Byte) (onMemory (Memory.peekMany start count))
  fail : ∀ {α : Type} (e : Fault), P α (throw e)
  strand : ∀ α : Type, P α (Mnemonic.stranded α)
  halt : ∀ s : Status, s.isHalted = true → P Unit (setStatus s)

theorem Compositional.decodeOperand {P : (α : Type) → MachineM α → Prop}
    (h : Compositional (fun _ => True) P)
    (hpeek : ∀ start count, P (List Byte) (onMemory (Memory.peekMany start count)))
    (hfail : ∀ e : Fault, P Decoded (throw e)) (opcode : Byte) (i : Instruction) (start : Int) :
    P Decoded (decodeOperand opcode i start) := by
  have hdescribe (address : Option Int) (next : Int) :
      P Decoded (describe opcode i address start next) := by
    refine h.bind (hpeek _ _) fun operand => ?_
    split
    · exact hfail _
    · exact h.pure _
  exact h.bind (h.resolve i.mode fun _ _ => trivial) fun address =>
    h.counter (describe opcode i address start) (hdescribe address)

namespace Cyclic

variable {P : (α : Type) → MachineM α → Prop}

theorem decodeOperand (h : Cyclic P) (opcode : Byte) (i : Instruction) (start : Int) :
    P Decoded (decodeOperand opcode i start) :=
  h.toCompositional.decodeOperand h.peek h.fail opcode i start

theorem decode (h : Cyclic P) (opcode : Byte) (place : Int) : P Decoded (decode opcode place) := by
  rw [decode_eq]
  refine h.slot opcode (decodeSlot opcode place) fun slot => ?_
  cases slot with
  | none => exact h.bind (h.halt _ rfl) fun _ => h.fail _
  | some i => exact h.counter (Machine.decodeOperand opcode i) (h.decodeOperand opcode i)

theorem execute (h : Cyclic P) (d : Decoded) : P Unit (execute d) := by
  refine h.bind ?_ fun _ => ?_
  · exact h.toCompositional.execute _ (fun _ _ => trivial) fun _ => ⟨h.strand, h.fail _⟩
  · split
    · exact h.halt _ rfl
    · exact h.pure ()

theorem carryOut (h : Cyclic P) (opcode : Byte) (place : Int) : P Decoded (carryOut opcode place) :=
  h.bind (h.decode opcode place) fun d => h.bind (h.execute d) fun _ => h.pure d

end Cyclic

namespace Machine

variable {m m' : Machine} {α β : Type} {act : MachineM α} {f : α → MachineM β} {d : Decoded}

/-- An action that leaves status and count of the processor alone. -/
def Uncounted (α : Type) (act : MachineM α) : Prop :=
  ∀ m, (after act m).status = m.status ∧ (after act m).steps = m.steps

namespace Uncounted

theorem ok {a : α} (h : Uncounted α act) (hact : act m = .ok a m') :
    m'.status = m.status ∧ m'.steps = m.steps :=
  after_ok hact ▸ h m

theorem bind (h : Uncounted α act) (hf : ∀ a, Uncounted β (f a)) : Uncounted β (act >>= f) := by
  intro m
  have hm := h m
  rw [after_bind]
  cases hact : act m with
  | ok a m' =>
    have hm' := h.ok hact
    have hrest := hf a m'
    exact ⟨hrest.1.trans hm'.1, hrest.2.trans hm'.2⟩
  | error e m' => exact after_error hact ▸ hm

theorem onMemory (act : MemoryM α) : Uncounted α (onMemory act) := by
  intro m
  simp only [after, Machine.onMemory]
  cases act m.memory <;> exact ⟨rfl, rfl⟩

theorem onIo (act : EStateM Fault Io Unit) : Uncounted Unit (onIo act) := by
  rintro ⟨memory, io, registers, table, status, steps⟩
  cases io with
  | none => exact ⟨rfl, rfl⟩
  | some io =>
    simp only [after, Machine.onIo]
    cases act io <;> exact ⟨rfl, rfl⟩

theorem read (address : Int) : Uncounted Byte (read address) := by
  refine bind (f := fun m => _) (fun _ => ⟨rfl, rfl⟩) fun m => ?_
  split
  · exact bind (fun _ => ⟨rfl, rfl⟩) fun _ _ => ⟨rfl, rfl⟩
  · exact onMemory _

theorem compositional : Compositional (fun _ => True) Uncounted where
  pure _ _ := ⟨rfl, rfl⟩
  bind := bind
  registers _ hf m := hf m.registers m
  counter _ hf m := hf m.memory.pc m
  pointer _ hf m := hf m.memory.sp m
  update _ _ _ := ⟨rfl, rfl⟩
  read address _ := read address
  write _ _ := (onMemory _).bind fun _ => onIo _
  fetch := onMemory _
  push _ := onMemory _
  pull := onMemory _
  pushPc := onMemory _
  ret := onMemory _
  jump _ := onMemory _
  point _ := onMemory _

theorem decodeOperand (opcode : Byte) (i : Instruction) (start : Int) :
    Uncounted Decoded (decodeOperand opcode i start) :=
  compositional.decodeOperand (fun _ _ => onMemory _) (fun _ _ => ⟨rfl, rfl⟩) opcode i start

theorem mnemonic (mnemonic : Mnemonic) (e : Option Int) : Uncounted Unit (mnemonic.execute e) :=
  compositional.execute mnemonic (fun _ _ => trivial) fun _ =>
    ⟨fun _ _ => ⟨rfl, rfl⟩, fun _ => ⟨rfl, rfl⟩⟩

end Uncounted

/-- The end of a program halts the processor; no other instruction does. -/
theorem execute_status (h : execute d m = .ok () m') :
    m'.status = (if d.instruction.mnemonic = .brk then .finished else m.status) ∧
      m'.steps = m.steps := by
  obtain ⟨_, m₁, he, h⟩ := bind_eq_ok.mp h
  have hcount := (Uncounted.mnemonic d.instruction.mnemonic d.address).ok he
  split at h
  · rename_i hbrk
    cases h
    exact ⟨(if_pos hbrk).symm, hcount.2⟩
  · rename_i hbrk
    cases h
    exact ⟨hcount.1.trans (if_neg hbrk).symm, hcount.2⟩

/-- An instruction that fails leaves the processor running. -/
theorem execute_failed {e : Fault} (h : execute d m = .error e m') :
    m'.status = m.status ∧ m'.steps = m.steps := by
  have hcount := Uncounted.mnemonic d.instruction.mnemonic d.address m
  cases he : d.instruction.mnemonic.execute d.address m with
  | ok _ m₁ =>
    rw [execute, bind_ok he] at h
    split at h <;> cases h
  | error e m₁ =>
    rw [execute, bind_error he] at h
    cases h
    exact after_error he ▸ hcount

/-- A step counts itself, unless the processor has halted. -/
theorem step_steps {s : Snapshot} (h : step m = .ok s m') :
    m'.steps = m.steps + if m.isHalted then 0 else 1 := by
  rcases step_ok h with ⟨hm, rfl, -⟩ | ⟨hm, opcode, m₁, d, m₂, m₃, hf, hd, he, hreport⟩
  · rw [hm]
    rfl
  · have h₁ : m₁.steps = m.steps := ((Uncounted.onMemory _).ok hf).2
    have h₂ : m₂.steps = m₁.steps := by
      obtain ⟨i, -, -, ht, -⟩ := decode_ok hd
      rw [decode_defined ht] at hd
      exact ((Uncounted.decodeOperand opcode i _).ok hd).2
    cases hreport
    change m₃.steps + 1 = _
    rw [hm, (execute_status he).2, h₂, h₁]
    rfl

end Machine

end Micro6502
