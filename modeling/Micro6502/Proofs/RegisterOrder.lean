import Micro6502.Proofs.DerivedFlags
import Micro6502.System

namespace Micro6502

namespace InitialState

open Registers (Operation latest?)

/-- The value that a configuration gives to a name; of several the last one counts. -/
def value? (i : InitialState) (name : String) : Option Int := i.registers.reverse.lookup name

def cell (i : InitialState) (name : String) : Byte := ((i.value? name).map byte).getD 0

def lastWritten? (i : InitialState) : Option Int :=
  i.registers.reverse.findSome? fun entry =>
    if entry.1 ∈ Register.names then some entry.2 else none

/-- N and Z are bit 7 and zeroness of the value written last; they are clear if there is none, and
the carry is in any case. -/
def flag (i : InitialState) : Flag → Bool
  | .c => false
  | .n => i.lastWritten?.any fun n => (n % 0x100).toNat.testBit 7
  | .z => i.lastWritten?.any fun n => n % 0x100 == 0

variable {i : InitialState}

def writes (i : InitialState) : List Operation :=
  i.registers.map fun entry => .set entry.1 entry.2

theorem setNamed_eq (i : InitialState) :
    i.registers.foldl setNamed {} = Registers.performAll {} i.writes := by
  have hset (r : Registers) (entry : String × Int) :
      setNamed r entry = Operation.perform r (.set entry.1 entry.2) := by
    rw [Operation.perform_set, setNamed]
    cases Register.ofName? entry.1 <;> rfl
  rw [Registers.performAll, writes, List.foldl_map]
  simp only [← hset]

/-- A register holds the value under its name, or else zero. -/
theorem get_setNamed {name : String} {target : Register}
    (h : Register.ofName? name = some target) (i : InitialState) :
    (i.registers.foldl setNamed {}).get target = i.cell name := by
  have hvalue : latest? (Operation.written? target) i.writes = i.value? name := by
    rw [writes, Registers.latest?_map, value?, List.lookup_eq_findSome?]
    congr 1
    funext entry
    simp only [Operation.written?, Register.ofName?_eq_some.mp h, beq_iff_eq,
      @eq_comm _ entry.1]
  have hcell := (Registers.derived_performAll i.writes).value target
  rw [← byte_val ((i.registers.foldl setNamed {}).get target), setNamed_eq, hcell, hvalue, cell]
  cases i.value? name with
  | none => rfl
  | some n => rw [Option.getD_some, ← val_byte, byte_val, Option.map_some, Option.getD_some]

theorem flag_setNamed (i : InitialState) (f : Flag) :
    (i.registers.foldl setNamed {}).flag f = i.flag f := by
  have hlast : latest? Operation.normalized? i.writes = i.lastWritten? :=
    Registers.latest?_map ..
  have hderived := Registers.derived_performAll i.writes
  rw [setNamed_eq]
  cases f with
  | c =>
    -- no write touches the carry
    have hnone : latest? Operation.carried? i.writes = none := by
      rw [writes, Registers.latest?_map]
      exact List.findSome?_eq_none_iff.mpr fun _ _ => rfl
    rw [Registers.flag, hderived.carry, hnone]
    rfl
  | n => rw [Registers.flag, hderived.negative, hlast, flag]
  | z => rw [Registers.flag, hderived.zero, hlast, flag]

/-- The state of the processor once an initial state has been applied to it. -/
theorem state_apply (i : InitialState) (m : Machine) :
    (i.apply m).state =
      { pc := word i.pc, sp := i.sp % 0x100, a := i.cell "A", x := i.cell "X", y := i.cell "Y",
        carry := i.flag .c, negative := i.flag .n, zero := i.flag .z } := by
  have ha : (i.registers.foldl setNamed {}).a = i.cell "A" :=
    get_setNamed (show _ = some .a from rfl) i
  have hx : (i.registers.foldl setNamed {}).x = i.cell "X" :=
    get_setNamed (show _ = some .x from rfl) i
  have hy : (i.registers.foldl setNamed {}).y = i.cell "Y" :=
    get_setNamed (show _ = some .y from rfl) i
  rw [← ha, ← hx, ← hy, ← flag_setNamed, ← flag_setNamed, ← flag_setNamed]
  rfl

end InitialState

namespace SystemConfig

/-- Configurations that say the same, in whatever order they list the registers. -/
structure Same (c c' : SystemConfig) : Prop where
  origin : c'.origin = c.origin
  opcodeTable : c'.opcodeTable = c.opcodeTable
  io : c'.io = c.io
  display : c'.display = c.display
  pc : c'.initial.pc = c.initial.pc
  sp : c'.initial.sp = c.initial.sp
  registers : ∀ name, c'.initial.value? name = c.initial.value? name

/-- The processors are in the same state but for N and Z, which are those of the value written last;
the states are the same altogether if and only if these values agree in sign and zeroness. -/
structure Agree (c c' : SystemConfig) (m m' : Machine) : Prop where
  state : { m'.state with negative := m.state.negative, zero := m.state.zero } = m.state
  status : m'.status = m.status
  steps : m'.steps = m.steps
  negative : m.state.negative = c.initial.flag .n ∧ m'.state.negative = c'.initial.flag .n
  zero : m.state.zero = c.initial.flag .z ∧ m'.state.zero = c'.initial.flag .z
  whole : m'.state = m.state ↔ ∀ f, c'.initial.flag f = c.initial.flag f

variable {c c' : SystemConfig}

theorem Same.apply (h : c.Same c') (m m' : Machine) :
    c.Agree c' (c.initial.apply m) (c'.initial.apply m') := by
  have hcell (name : String) : c'.initial.cell name = c.initial.cell name := by
    rw [InitialState.cell, InitialState.cell, h.registers]
  have hcarry : c'.initial.flag .c = c.initial.flag .c := rfl
  have hstate := c.initial.state_apply m
  have hstate' := c'.initial.state_apply m'
  rw [h.pc, h.sp, hcell, hcell, hcell, hcarry] at hstate'
  refine ⟨?_, rfl, rfl, ?_, ?_, ?_⟩
  · rw [hstate, hstate']
  · rw [hstate, hstate']
    exact ⟨rfl, rfl⟩
  · rw [hstate, hstate']
    exact ⟨rfl, rfl⟩
  · rw [hstate, hstate']
    constructor
    · intro heq f
      cases f with
      | c => exact hcarry
      | n => exact congrArg CpuState.negative heq
      | z => exact congrArg CpuState.zero heq
    · intro hflags
      rw [hflags, hflags]

/-- Configurations that say the same build machines that agree, and restore them alike. -/
theorem same_agree (h : c.Same c') :
    (∀ console console' random random' table table',
      c.Agree c' (c.build console random table) (c'.build console' random' table')) ∧
    ∀ m m', c.Agree c' (c.initial.apply m) (c'.initial.apply m') :=
  ⟨fun _ _ _ _ _ _ => h.apply _ _, h.apply⟩

def withTwo (first second : String × Int) : SystemConfig :=
  { initial := { registers := [first, second] } }

theorem same_swapped {first second : String × Int} (h : first.1 ≠ second.1) :
    (withTwo first second).Same (withTwo second first) := by
  refine ⟨rfl, rfl, rfl, rfl, rfl, rfl, fun name => ?_⟩
  obtain ⟨one, n⟩ := first
  obtain ⟨other, n'⟩ := second
  change List.lookup name [(one, n), (other, n')] = List.lookup name [(other, n'), (one, n)]
  rw [List.lookup_cons, List.lookup_cons, List.lookup_cons, List.lookup_cons]
  by_cases hname : name = one
  · have hne : (name == other) = false := by
      rw [beq_eq_false_iff_ne, hname]
      exact h
    rw [hne]
  · rw [beq_eq_false_iff_ne.mpr hname]

/-- Two values of one sign, neither of them zero, build the same state in either order. -/
theorem same_agree_swapped :
    (withTwo ("A", 1) ("X", 2)).Same (withTwo ("X", 2) ("A", 1)) ∧
    ∀ console random table,
      ((withTwo ("X", 2) ("A", 1)).build console random table).state =
        ((withTwo ("A", 1) ("X", 2)).build console random table).state := by
  have h : (withTwo ("A", 1) ("X", 2)).Same (withTwo ("X", 2) ("A", 1)) :=
    same_swapped (by decide)
  refine ⟨h, fun console random table => ?_⟩
  refine ((same_agree h).1 console console random random table table).whole.mpr fun f => ?_
  cases f <;> rfl

/-- A negative value and a zero leave their mark on N and Z as the order has it. -/
theorem same_disagree :
    ∃ c c' : SystemConfig, c.Same c' ∧ ∀ console random table,
      (c.build console random table).state =
        { pc := 0x0600, a := 0x80, negative := false, zero := true } ∧
      (c'.build console random table).state =
        { pc := 0x0600, a := 0x80, negative := true, zero := false } :=
  ⟨withTwo ("A", 0x80) ("X", 0), withTwo ("X", 0) ("A", 0x80), same_swapped (by decide),
    fun _ _ _ => ⟨rfl, rfl⟩⟩

end SystemConfig

end Micro6502
