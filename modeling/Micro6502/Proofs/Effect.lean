import Micro6502.Proofs.Cyclic

namespace Micro6502.Machine

open Relation

inductive Effect (m : Machine) : Machine → Prop
  | takeLog : Effect m (after (onMemory Memory.takeLog) m)
  | peek (start : Int) (count : Nat) :
      Effect m (after (onMemory (Memory.peekMany start count)) m)
  | fetch : Effect m (after Mode.fetch m)
  | read (address : Int) : Effect m (after (read address) m)
  | write (address value : Int) : Effect m (after (write address value) m)
  | push (value : Int) : Effect m (after (onMemory (Memory.push value)) m)
  | pull : Effect m (after (onMemory Memory.pull) m)
  | jump (address : Int) : Effect m (after (onMemory (Memory.jump address)) m)
  | point (b : Byte) : Effect m (after (onMemory (Memory.setSp b)) m)
  | update (r : Registers) (h : m.registers.Update r) : Effect m { m with registers := r }
  | halt (s : Status) (halted : s.isHalted) : Effect m { m with status := s }
  | count : Effect m { m with steps := m.steps + 1 }

/-- An action that does nothing but elementary effects. -/
def Does {α : Type} (act : MachineM α) : Prop :=
  ∀ m, ReflTransGen Effect m (after act m)

namespace Does

variable {α β : Type} {act : MachineM α} {f : α → MachineM β}

theorem single (h : ∀ m, Effect m (after act m)) : Does act :=
  fun m => .single (h m)

theorem pure (a : α) : Does (Pure.pure a : MachineM α) :=
  fun _ => .refl

theorem get : Does (MonadState.get : MachineM Machine) :=
  fun _ => .refl

/-- A failure that comes before anything else does nothing. -/
theorem fail (e : Machine → Fault) : Does (fun m => .error (e m) m : MachineM α) :=
  fun _ => .refl

theorem bind (h : Does act) (hf : ∀ a, Does (f a)) : Does (act >>= f) := by
  intro m
  have hm := h m
  rw [after_bind]
  cases hact : act m with
  | ok a t => exact (after_ok hact ▸ hm).trans (hf a t)
  | error e t => exact after_error hact ▸ hm

/-- What every effect preserves, the action preserves. -/
theorem keeps {I : Machine → Prop} (hI : ∀ m m', I m → Effect m m' → I m') (h : Does act)
    {m : Machine} (hm : I m) : I (after act m) := by
  have hm' := h m
  generalize after act m = m' at hm' ⊢
  induction hm' with
  | refl => exact hm
  | tail _ hstep ih => exact hI _ _ ih hstep

end Does

theorem does_update {f : Registers → Registers}
    (h : ∀ r, ReflTransGen Registers.Update r (f r)) : Does (modifyRegisters f) := by
  intro m
  refine (h m.registers).lift (fun r => { m with registers := r }) ?_
  exact fun r r' hr => .update r' hr

/-- An action on the memory in two parts is two actions of the machine. -/
theorem onMemory_bind {α β : Type} (act : MemoryM α) (f : α → MemoryM β) :
    onMemory (act >>= f) = onMemory act >>= fun a => onMemory (f a) := by
  funext m
  simp only [onMemory, bind, EStateM.bind]
  cases act m.memory <;> rfl

theorem does_push (value : Int) : Does (onMemory (Memory.push value)) :=
  .single fun _ => .push value

theorem does_pull : Does (onMemory Memory.pull) := .single fun _ => .pull

theorem does_jump (address : Int) : Does (onMemory (Memory.jump address)) :=
  .single fun _ => .jump address

theorem does_pushPc : Does (onMemory Memory.pushPc) := by
  rw [Memory.pushPc, onMemory_bind]
  refine Does.bind (fun _ => .refl) fun memory => ?_
  rw [onMemory_bind]
  exact (does_push _).bind fun _ => does_push _

theorem does_ret : Does (onMemory Memory.ret) := by
  rw [Memory.ret, onMemory_bind]
  refine does_pull.bind fun hi => ?_
  rw [onMemory_bind]
  exact does_pull.bind fun lo => does_jump _

theorem does_cyclic : Cyclic @Does where
  pure := .pure
  bind := .bind
  registers _ hf := Does.get.bind fun m => hf m.registers
  counter _ hf := Does.get.bind fun m => hf m.memory.pc
  pointer _ hf := Does.get.bind fun m => hf m.memory.sp
  update _ := does_update
  read address _ := .single fun _ => .read address
  write address value := .single fun _ => .write address value
  fetch := .single fun _ => .fetch
  push := does_push
  pull := does_pull
  pushPc := does_pushPc
  ret := does_ret
  jump := does_jump
  point b := .single fun _ => .point b
  slot opcode _ hf := Does.get.bind fun m => hf (m.table.get? opcode)
  peek start count := .single fun _ => .peek start count
  fail _ := .fail _
  strand _ := .fail _
  halt s halted := .single fun _ => .halt s halted

/-- A step is a chain of elementary effects, whether it succeeds or fails. -/
theorem does_step : Does step := by
  refine Does.bind (.single fun _ => .takeLog) fun _ => Does.get.bind fun m => ?_
  split
  · exact .pure _
  · refine does_cyclic.fetch.bind fun opcode => (does_cyclic.decode opcode _).bind fun d =>
      (does_cyclic.execute d).bind fun _ => Does.bind (.single fun _ => .count) fun _ => ?_
    exact Does.bind (.single fun _ => .takeLog) fun _ => Does.get.bind fun _ => .pure _

theorem does_runFrom (done limit : Nat) : Does (runFrom done limit) := by
  induction limit generalizing done with
  | zero => exact .pure done
  | succ limit ih =>
    refine Does.get.bind fun m => ?_
    split
    · exact .pure done
    · exact does_step.bind fun _ => ih (done + 1)

/-- So is a run of any length. -/
theorem does_run (limit : Nat) : Does (run limit) := does_runFrom 0 limit

end Micro6502.Machine
