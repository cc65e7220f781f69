import Micro6502.Machine

namespace Micro6502.Mnemonic

open Machine

def needed : Option Int → MachineM Int
  | some address => pure address
  | none => do throw (.noAddress (← get).io.isSome)

def operand (e : Option Int) : MachineM Byte := do
  read (← needed e)

def load (target : Register) (e : Option Int) : MachineM Unit := do
  setRegister target (← operand e)

def store (source : Register) (e : Option Int) : MachineM Unit := do
  write (← needed e) ((← get).registers.get source)

def transfer (source target : Register) : MachineM Unit := do
  setRegister target ((← get).registers.get source)

def logical (join : Byte → Byte → Byte) (e : Option Int) : MachineM Unit := do
  let b ← operand e
  setRegister .a (join (← get).registers.a b)

def test (e : Option Int) : MachineM Unit := do
  let b ← operand e
  modifyRegisters fun r => r.normalize (r.a &&& b)

def add (e : Option Int) : MachineM Unit := do
  let b ← operand e
  modifyRegisters fun r =>
    let total : Int := (r.a : Int) + b + r.carryBit
    (r.setCarry (0xFF < total)).set .a total

def subtract (e : Option Int) : MachineM Unit := do
  let b ← operand e
  modifyRegisters fun r =>
    let difference : Int := (r.a : Int) - b - (1 - r.carryBit)
    (r.setCarry (0 ≤ difference)).set .a difference

def compare (source : Register) (e : Option Int) : MachineM Unit := do
  let b ← operand e
  modifyRegisters fun r =>
    let value := r.get source
    (r.setCarry (b ≤ value)).normalize ((value : Int) - b)

/-- Moves the bits of a byte by one place: the result and the bit that falls out. -/
structure Shift where
  result : Int
  out : Bool

def shiftLeft (b : Byte) (fill : Nat) : Shift := ⟨2 * (b : Int) + fill, 0x80 ≤ b⟩

def shiftRight (b : Byte) (fill : Nat) : Shift := ⟨(b : Int) / 2 + 0x80 * fill, b % 2 = 1⟩

/-- Shifts the byte at the address, or A where there is none. `move` gets the byte and the carry as
it was before. -/
def shift (move : Byte → Nat → Shift) (e : Option Int) : MachineM Unit := do
  let fill := (← get).registers.carryBit
  match e with
  | none =>
    modifyRegisters fun r =>
      let s := move r.a fill
      (r.setCarry s.out).set .a s.result
  | some address =>
    let s := move (← read address) fill
    modifyRegisters fun r => (r.setCarry s.out).normalize s.result
    write address (byte s.result)

def bump (amount : Int) (e : Option Int) : MachineM Unit := do
  let address ← needed e
  let n : Int := (← read address) + amount
  modifyRegisters (·.normalize n)
  write address (byte n)

def count (target : Register) (amount : Int) : MachineM Unit :=
  modifyRegisters fun r => r.set target (r.get target + amount)

def jump : Option Int → MachineM Unit
  | some address => onMemory (Memory.jump address)
  | none => throw (.noAddress false)

def branch (flag : Flag) (wanted : Bool) (e : Option Int) : MachineM Unit := do
  if (← get).registers.flag flag = wanted then jump e

def call (e : Option Int) : MachineM Unit := do
  onMemory Memory.pushPc
  jump e

def execute : Mnemonic → Option Int → MachineM Unit
  | lda, e => load .a e
  | ldx, e => load .x e
  | ldy, e => load .y e
  | sta, e => store .a e
  | stx, e => store .x e
  | sty, e => store .y e
  | tax, _ => transfer .a .x
  | tay, _ => transfer .a .y
  | txa, _ => transfer .x .a
  | tya, _ => transfer .y .a
  | tsx, _ => do setRegister .x (← get).memory.sp
  | txs, _ => do onMemory (Memory.setSp (← get).registers.x)
  | adc, e => add e
  | sbc, e => subtract e
  | cmp, e => compare .a e
  | cpx, e => compare .x e
  | cpy, e => compare .y e
  | and, e => logical (· &&& ·) e
  | ora, e => logical (· ||| ·) e
  | eor, e => logical (· ^^^ ·) e
  | bit, e => test e
  | asl, e => shift (fun b _ => shiftLeft b 0) e
  | lsr, e => shift (fun b _ => shiftRight b 0) e
  | rol, e => shift shiftLeft e
  | ror, e => shift shiftRight e
  | inc, e => bump 1 e
  | dec, e => bump (-1) e
  | inx, _ => count .x 1
  | dex, _ => count .x (-1)
  | iny, _ => count .y 1
  | dey, _ => count .y (-1)
  | bcc, e => branch .c false e
  | bcs, e => branch .c true e
  | beq, e => branch .z true e
  | bne, e => branch .z false e
  | bmi, e => branch .n true e
  | bpl, e => branch .n false e
  | jmp, e => jump e
  | jsr, e => call e
  | rts, _ => onMemory Memory.ret
  | pha, _ => do onMemory (Memory.push (← get).registers.a)
  | pla, _ => do setRegister .a (← onMemory Memory.pull)
  | clc, _ => modifyRegisters (·.setCarry false)
  | sec, _ => modifyRegisters (·.setCarry true)
  | nop, _ => pure ()
  | brk, _ => pure ()

end Micro6502.Mnemonic
