import Mathlib.Logic.Relation
import Micro6502.Addressing
import Micro6502.Execution

namespace Micro6502

open Machine Relation

inductive Registers.Update (r : Registers) : Registers → Prop
  | set (target : Register) (n : Int) : Update r (r.set target n)
  | normalize (n : Int) : Update r (r.normalize n)
  | carry (c : Bool) : Update r (r.setCarry c)

/-- A property of actions that sequences inherit from their parts, and that holds of the elementary
actions of instructions. Reads need to have it only where `Readable` allows them. -/
structure Compositional (Readable : Int → Prop) (P : (α : Type) → MachineM α → Prop) : Prop where
  pure : ∀ {α : Type} (a : α), P α (Pure.pure a)
  bind : ∀ {α β : Type} {act : MachineM α} {f : α → MachineM β},
    P α act → (∀ a, P β (f a)) → P β (act >>= f)
  registers : ∀ {α : Type} (f : Registers → MachineM α),
    (∀ r, P α (f r)) → P α (get >>= fun m => f m.registers)
  counter : ∀ {α : Type} (f : Int → MachineM α),
    (∀ n, P α (f n)) → P α (get >>= fun m => f m.memory.pc)
  pointer : ∀ {α : Type} (f : Int → MachineM α),
    (∀ n, P α (f n)) → P α (get >>= fun m => f m.memory.sp)
  update : ∀ f : Registers → Registers,
    (∀ r, ReflTransGen Registers.Update r (f r)) → P Unit (modifyRegisters f)
  read : ∀ address, Readable address → P Byte (Machine.read address)
  write : ∀ address value, P Unit (Machine.write address value)
  fetch : P Byte Mode.fetch
  push : ∀ value, P Unit (onMemory (Memory.push value))
  pull : P Byte (onMemory Memory.pull)
  pushPc : P Unit (onMemory Memory.pushPc)
  ret : P Unit (onMemory Memory.ret)
  jump : ∀ address, P Unit (onMemory (Memory.jump address))
  point : ∀ b : Byte, P Unit (onMemory (Memory.setSp b))

/-- The end of an instruction that reads or writes at its effective address and has none. -/
def Mnemonic.stranded (α : Type) : MachineM α := fun m => .error (.noAddress m.io.isSome) m

def Mnemonic.readsOperand : Mnemonic → Bool
  | lda | ldx | ldy => true
  | adc | sbc | cmp | cpx | cpy | and | ora | eor | bit => true
  | asl | lsr | rol | ror | inc | dec => true
  | _ => false

def Mnemonic.reads (mnemonic : Mnemonic) (e : Option Int) : List Int :=
  if mnemonic.readsOperand then e.toList else []

namespace Compositional

variable {Readable : Int → Prop} {P : (α : Type) → MachineM α → Prop}

section modes

open Mode

theorem readWord (h : Compositional Readable P) {lo hi : Int} (hlo : Readable lo)
    (hhi : Readable hi) : P Int (readWord lo hi) :=
  h.bind (h.read lo hlo) fun _ => h.bind (h.read hi hhi) fun _ => h.pure _

theorem fetchWord (h : Compositional Readable P) : P Int fetchWord :=
  h.bind h.fetch fun _ => h.bind h.fetch fun _ => h.pure _

theorem zeroPageIndexed (h : Compositional Readable P) (index : Register) :
    P Int (zeroPageIndexed index) :=
  h.bind h.fetch fun b =>
    h.registers (fun r => Pure.pure (((b : Int) + r.get index) % 0x100)) fun _ => h.pure _

theorem absoluteIndexed (h : Compositional Readable P) (index : Register) :
    P Int (absoluteIndexed index) :=
  h.bind h.fetchWord fun w =>
    h.registers (fun r => Pure.pure (word (w + r.get index))) fun _ => h.pure _

/-- The word that an indirect mode finds at its pointer. -/
theorem indirectIndexed (h : Compositional Readable P) {pointer : Int}
    (hlo : Readable pointer) (hhi : Readable ((pointer + 1) % 0x100)) :
    P (Option Int) (do
      let base ← Mode.readWord pointer ((pointer + 1) % 0x100)
      return some (word (base + (← get).registers.get .y))) :=
  h.bind (h.readWord hlo hhi) fun base =>
    h.registers (fun r => Pure.pure (some (word (base + r.get .y)))) fun _ => h.pure _

theorem resolve (h : Compositional Readable P) (mode : Mode)
    (hread : mode = .indirect ∨ mode = .indexedIndirect ∨ mode = .indirectIndexed →
      ∀ address, Readable address) : P (Option Int) mode.resolve := by
  cases mode with
  | implicit => exact h.pure _
  | relative =>
    exact h.bind h.fetch fun offset =>
      h.counter (fun n => Pure.pure (some (word (n + signedOffset offset)))) fun _ => h.pure _
  | immediate =>
    exact h.counter (fun n => Mode.fetch >>= fun _ => Pure.pure (some n)) fun n =>
      h.bind h.fetch fun _ => h.pure _
  | zeroPage => exact h.bind h.fetch fun _ => h.pure _
  | zeroPageX => exact h.bind (h.zeroPageIndexed .x) fun _ => h.pure _
  | zeroPageY => exact h.bind (h.zeroPageIndexed .y) fun _ => h.pure _
  | absolute => exact h.bind h.fetchWord fun _ => h.pure _
  | absoluteX => exact h.bind (h.absoluteIndexed .x) fun _ => h.pure _
  | absoluteY => exact h.bind (h.absoluteIndexed .y) fun _ => h.pure _
  | indirect =>
    have hr := hread (by simp)
    exact h.bind h.fetchWord fun _ => h.bind (h.readWord (hr _) (hr _)) fun _ => h.pure _
  | indexedIndirect =>
    have hr := hread (by simp)
    exact h.bind (h.zeroPageIndexed .x) fun _ => h.bind (h.readWord (hr _) (hr _)) fun _ => h.pure _
  | indirectIndexed =>
    have hr := hread (by simp)
    exact h.bind (h.bind h.fetch fun _ => h.pure _) fun _ => h.indirectIndexed (hr _) (hr _)

end modes

section mnemonics

open Mnemonic

variable {e : Option Int}

theorem needed (_ : Compositional Readable P) {α : Type} {f : Int → MachineM α}
    (hnone : e = none → P α (stranded α)) (hf : ∀ a ∈ e, P α (f a)) :
    P α (needed e >>= f) := by
  cases e with
  | none => exact hnone rfl
  | some address => exact hf address rfl

theorem operand (h : Compositional Readable P) (hread : ∀ a ∈ e, Readable a)
    (hnone : e = none → P Byte (stranded Byte)) : P Byte (operand e) :=
  h.needed hnone fun a ha => h.read a (hread a ha)

theorem setRegister (h : Compositional Readable P) (target : Register) (n : Int) :
    P Unit (setRegister target n) :=
  h.update _ fun _ => .single (.set target n)

theorem carrySet (h : Compositional Readable P) (c : Registers → Bool) (target : Register)
    (n : Registers → Int) :
    P Unit (modifyRegisters fun r => (r.setCarry (c r)).set target (n r)) :=
  h.update _ fun r => .tail (.single (.carry (c r))) (.set target (n r))

theorem carryNormalize (h : Compositional Readable P) (c : Registers → Bool)
    (n : Registers → Int) :
    P Unit (modifyRegisters fun r => (r.setCarry (c r)).normalize (n r)) :=
  h.update _ fun r => .tail (.single (.carry (c r))) (.normalize (n r))

theorem store (h : Compositional Readable P) (source : Register)
    (hnone : e = none → P Unit (stranded Unit)) : P Unit (store source e) :=
  h.needed hnone fun a _ => h.registers (fun r => Machine.write a (r.get source)) fun _ =>
    h.write a _

theorem transfer (h : Compositional Readable P) (source target : Register) :
    P Unit (transfer source target) :=
  h.registers (fun r => Machine.setRegister target (r.get source)) fun _ =>
    h.setRegister target _

theorem logical (h : Compositional Readable P) (join : Byte → Byte → Byte)
    (hoperand : P Byte (Mnemonic.operand e)) : P Unit (logical join e) :=
  h.bind hoperand fun b =>
    h.registers (fun r => Machine.setRegister .a (join r.a b)) fun _ => h.setRegister .a _

theorem shift (h : Compositional Readable P) (move : Byte → Nat → Shift)
    (hread : ∀ a ∈ e, Readable a) : P Unit (shift move e) := by
  cases e with
  | none =>
    exact h.registers (fun r => modifyRegisters fun s =>
      (s.setCarry (move s.a r.carryBit).out).set .a (move s.a r.carryBit).result) fun r =>
        h.carrySet (fun s => (move s.a r.carryBit).out) .a fun s => (move s.a r.carryBit).result
  | some address =>
    refine h.registers (fun r => do
      let b ← Machine.read address
      modifyRegisters fun s =>
        (s.setCarry (move b r.carryBit).out).normalize (move b r.carryBit).result
      Machine.write address (byte (move b r.carryBit).result)) fun r => ?_
    exact h.bind (h.read address (hread address rfl)) fun b =>
      h.bind (h.carryNormalize _ _) fun _ => h.write address _

theorem bump (h : Compositional Readable P) (amount : Int) (hread : ∀ a ∈ e, Readable a)
    (hnone : e = none → P Unit (stranded Unit)) : P Unit (bump amount e) :=
  h.needed hnone fun a ha => h.bind (h.read a (hread a ha)) fun _ =>
    h.bind (h.update _ fun _ => .single (.normalize _)) fun _ => h.write a _

theorem count (h : Compositional Readable P) (target : Register) (amount : Int) :
    P Unit (count target amount) :=
  h.update (fun r => r.set target (r.get target + amount)) fun _ => .single (.set target _)

theorem jumpTo (h : Compositional Readable P)
    (hnone : e = none → P Unit (Mnemonic.jump none)) : P Unit (Mnemonic.jump e) := by
  cases e with
  | none => exact hnone rfl
  | some address => exact h.jump address

theorem branch (h : Compositional Readable P) (flag : Flag) (wanted : Bool)
    (hjump : P Unit (Mnemonic.jump e)) : P Unit (branch flag wanted e) := by
  refine h.registers (fun r => if r.flag flag = wanted then Mnemonic.jump e else Pure.pure ())
    fun r => ?_
  split
  · exact hjump
  · exact h.pure ()

/-- An instruction has the property if its reads may have it. Without an effective address the two
ways of missing it must have the property too. -/
theorem execute (h : Compositional Readable P) (mnemonic : Mnemonic)
    (hread : ∀ a ∈ mnemonic.reads e, Readable a)
    (hnone : e = none → (∀ α, P α (stranded α)) ∧ P Unit (Mnemonic.jump none)) :
    P Unit (mnemonic.execute e) := by
  have hreads (hm : mnemonic.readsOperand = true) : ∀ a ∈ e, Readable a := by
    intro a ha
    exact hread a (by simpa [Mnemonic.reads, hm] using ha)
  have hoperand (hm : mnemonic.readsOperand = true) : P Byte (Mnemonic.operand e) :=
    h.operand (hreads hm) fun he => (hnone he).1 Byte
  have hjump : P Unit (Mnemonic.jump e) := h.jumpTo fun he => (hnone he).2
  cases mnemonic with
  | lda | ldx | ldy => exact h.bind (hoperand rfl) fun _ => h.setRegister _ _
  | sta | stx | sty => exact h.store _ fun he => (hnone he).1 Unit
  | tax | tay | txa | tya => exact h.transfer _ _
  | tsx => exact h.pointer (fun n => Machine.setRegister .x n) fun _ => h.setRegister .x _
  | txs => exact h.registers (fun r => onMemory (Memory.setSp r.x)) fun r => h.point r.x
  | adc => exact h.bind (hoperand rfl) fun _ => h.carrySet _ .a _
  | sbc => exact h.bind (hoperand rfl) fun _ => h.carrySet _ .a _
  | cmp | cpx | cpy => exact h.bind (hoperand rfl) fun _ => h.carryNormalize _ _
  | and | ora | eor => exact h.logical _ (hoperand rfl)
  | bit => exact h.bind (hoperand rfl) fun _ => h.update _ fun _ => .single (.normalize _)
  | asl => exact h.shift (fun b _ => shiftLeft b 0) (hreads rfl)
  | lsr => exact h.shift (fun b _ => shiftRight b 0) (hreads rfl)
  | rol => exact h.shift shiftLeft (hreads rfl)
  | ror => exact h.shift shiftRight (hreads rfl)
  | inc | dec => exact h.bump _ (hreads rfl) fun he => (hnone he).1 Unit
  | inx | iny => exact h.count _ 1
  | dex | dey => exact h.count _ (-1)
  | bcc | bcs | beq | bne | bmi | bpl => exact h.branch _ _ hjump
  | jmp => exact hjump
  | jsr => exact h.bind h.pushPc fun _ => hjump
  | rts => exact h.ret
  | pha => exact h.registers (fun r => onMemory (Memory.push r.a)) fun r => h.push r.a
  | pla => exact h.bind h.pull fun _ => h.setRegister .a _
  | clc | sec => exact h.update _ fun _ => .single (.carry _)
  | nop | brk => exact h.pure ()

end mnemonics

end Compositional

end Micro6502
