import Mathlib.Data.List.Induction
import Mathlib.Tactic.SplitIfs
import Micro6502.Proofs.Outcome
import Micro6502.Registers

namespace Micro6502

def Register.name : Register → String
  | .a => "A"
  | .x => "X"
  | .y => "Y"

def Register.names : List String := ["A", "X", "Y"]

def Flag.names : List String := ["C", "N", "Z"]

theorem Register.ofName?_eq_some {name : String} {target : Register} :
    ofName? name = some target ↔ name = target.name := by
  constructor
  · intro h
    unfold ofName? at h
    split at h <;> cases h <;> rfl
  · rintro rfl
    cases target <;> rfl

theorem Register.ofName?_eq_none {name : String} : ofName? name = none ↔ name ∉ names := by
  unfold ofName? names
  split <;> simp_all

theorem Register.mem_names {name : String} :
    name ∈ names ↔ ∃ target, ofName? name = some target := by
  rw [← Option.ne_none_iff_exists', Ne, ofName?_eq_none, not_not]

theorem Flag.ofName?_eq_none {name : String} : ofName? name = none ↔ name ∉ names := by
  unfold ofName? names
  split <;> simp_all

/-- No name is that of a register and of a flag. -/
theorem Register.names_disjoint {name : String} (h : name ∈ names) : name ∉ Flag.names := by
  simp only [names, List.mem_cons, List.not_mem_nil, or_false] at h
  rcases h with rfl | rfl | rfl <;> decide

namespace Registers

theorem setNamed_register {name : String} {target : Register}
    (h : Register.ofName? name = some target) (r : Registers) (n : Int) :
    r.setNamed name n = .ok (r.set target n) := by
  have hname : name ∈ Register.names := Register.mem_names.mpr ⟨target, h⟩
  have hflag := Flag.ofName?_eq_none.mpr (Register.names_disjoint hname)
  simp only [setNamed, h, hflag]

theorem setNamed_flag {name : String} (h : name ∈ Flag.names) (r : Registers) (n : Int) :
    r.setNamed name n = .error (.flagWrite name) := by
  cases hflag : Flag.ofName? name with
  | none => exact absurd h (Flag.ofName?_eq_none.mp hflag)
  | some f => simp only [setNamed, hflag]

theorem setNamed_unknown {name : String} (h : name ∉ Register.names) (h' : name ∉ Flag.names)
    (r : Registers) (n : Int) : r.setNamed name n = .error (.unknownTarget name) := by
  simp only [setNamed, Register.ofName?_eq_none.mpr h, Flag.ofName?_eq_none.mpr h']

/-- N is the top bit of the byte that a number is cut to. -/
theorem negative_normalize (r : Registers) (n : Int) :
    (r.normalize n).negative = (n % 0x100).toNat.testBit 7 := by
  have hbyte : (byte n).toNat = (n % 0x100).toNat := by
    have := val_byte n
    omega
  have hlt := (byte n).toNat_lt
  rw [← hbyte, Nat.testBit_eq_decide_div_mod_eq]
  simp only [normalize, UInt8.le_iff_toNat_le, decide_eq_decide, UInt8.reduceToNat]
  omega

theorem zero_normalize (r : Registers) (n : Int) : (r.normalize n).zero = (n % 0x100 == 0) := by
  have hbyte := val_byte n
  have hzero : byte n = 0 ↔ n % 0x100 = 0 := by
    rw [← UInt8.toNat_inj, UInt8.toNat_zero]
    omega
  simp only [normalize, hzero]
  rfl

inductive Operation where
  /-- Writes a number under a name. -/
  | set (name : String) (n : Int)
  | normalize (n : Int)
  /-- Sets the carry, clears it, or sets it on a condition. -/
  | carry (c : Bool)
  deriving DecidableEq, Repr

namespace Operation

def act : Operation → EStateM Fault Registers Unit
  | set name n => fun r =>
    match r.setNamed name n with
    | .ok r' => .ok () r'
    | .error e => .error e r
  | normalize n => modify (·.normalize n)
  | carry c => modify (·.setCarry c)

def perform (r : Registers) (o : Operation) : Registers := after o.act r

def written? (target : Register) : Operation → Option Int
  | set name n => if name = target.name then some n else none
  | _ => none

/-- The number that is cut to a byte; a write does so where there is a register to write. -/
def normalized? : Operation → Option Int
  | set name n => if name ∈ Register.names then some n else none
  | normalize n => some n
  | carry _ => none

def carried? : Operation → Option Bool
  | carry c => some c
  | _ => none

variable {r r' : Registers} {name : String} {n : Int} {e : Fault}

theorem set_ok (h : r.setNamed name n = .ok r') : (set name n).act r = .ok () r' := by
  simp only [act, h]

theorem set_error (h : r.setNamed name n = .error e) : (set name n).act r = .error e r := by
  simp only [act, h]

/-- A name that no register has is refused, and the registers stay as they are. -/
theorem perform_refused (h : name ∉ Register.names) (r : Registers) (n : Int) :
    perform r (set name n) = r := by
  by_cases hflag : name ∈ Flag.names
  · exact after_error (set_error (setNamed_flag hflag r n))
  · exact after_error (set_error (setNamed_unknown h hflag r n))

theorem outcome_set (r : Registers) (name : String) (n : Int) :
    outcome (set name n).act r =
      if name ∈ Register.names then .ok ()
      else if name ∈ Flag.names then .error (.flagWrite name)
      else .error (.unknownTarget name) := by
  split_ifs with h hflag
  · obtain ⟨target, htarget⟩ := Register.mem_names.mp h
    exact outcome_ok (set_ok (setNamed_register htarget r n))
  · exact outcome_error (set_error (setNamed_flag hflag r n))
  · exact outcome_error (set_error (setNamed_unknown h hflag r n))

/-- A write goes to the register of that name, or does nothing. -/
theorem perform_set (r : Registers) (name : String) (n : Int) :
    perform r (set name n) = (Register.ofName? name).elim r fun target => r.set target n := by
  cases h : Register.ofName? name with
  | some target => exact after_ok (set_ok (setNamed_register h r n))
  | none => exact perform_refused (Register.ofName?_eq_none.mp h) r n

theorem get_perform (r : Registers) (o : Operation) (target : Register) :
    ((perform r o).get target : Int) =
      (o.written? target).elim (r.get target : Int) (· % 0x100) := by
  cases o with
  | set name n =>
    simp only [perform_set, written?, ← Register.ofName?_eq_some]
    cases h : Register.ofName? name with
    | none => rfl
    | some other =>
      rw [Option.elim_some, get_set]
      by_cases hsame : target = other
      · simp [hsame, val_byte]
      · simp [hsame, Ne.symm hsame]
  | normalize n => cases target <;> rfl
  | carry c => cases target <;> rfl

/-- N and Z come from the number that is cut to a byte and from nothing else. -/
theorem flag_perform (r : Registers) (o : Operation) :
    (perform r o).negative =
        (o.normalized?.elim r.negative fun n => (n % 0x100).toNat.testBit 7) ∧
      (perform r o).zero = (o.normalized?.elim r.zero fun n => n % 0x100 == 0) := by
  cases o with
  | set name n =>
    rw [perform_set, normalized?]
    cases h : Register.ofName? name with
    | none => simp [Register.ofName?_eq_none.mp h]
    | some target =>
      rw [if_pos (Register.mem_names.mpr ⟨target, h⟩)]
      exact ⟨(flag_set r target n .n).trans (negative_normalize r n),
        (flag_set r target n .z).trans (zero_normalize r n)⟩
  | normalize n => exact ⟨negative_normalize r n, zero_normalize r n⟩
  | carry c => exact ⟨rfl, rfl⟩

theorem carry_perform (r : Registers) (o : Operation) :
    (perform r o).carry = o.carried?.getD r.carry := by
  cases o with
  | set name n =>
    rw [perform_set]
    cases Register.ofName? name with
    | none => rfl
    | some target => exact flag_set r target n .c
  | normalize n => rfl
  | carry c => rfl

end Operation

def latest? {α : Type} (said : Operation → Option α) (ops : List Operation) : Option α :=
  ops.reverse.findSome? said

theorem latest?_concat {α : Type} (said : Operation → Option α) (ops : List Operation)
    (o : Operation) : latest? said (ops ++ [o]) = (said o).or (latest? said ops) := by
  rw [latest?, List.reverse_concat, List.findSome?_cons]
  cases said o <;> rfl

theorem latest?_map {α β : Type} (said : Operation → Option α) (f : β → Operation)
    (xs : List β) : latest? said (xs.map f) = xs.reverse.findSome? fun x => said (f x) := by
  rw [latest?, ← List.map_reverse, List.findSome?_map]
  rfl

/-- The registers hold nothing but what the operations have left in them. -/
structure Derived (ops : List Operation) (r : Registers) : Prop where
  value : ∀ target,
    (r.get target : Int) = (latest? (Operation.written? target) ops).getD 0 % 0x100
  negative : r.negative =
    (latest? Operation.normalized? ops).any fun n => (n % 0x100).toNat.testBit 7
  zero : r.zero = (latest? Operation.normalized? ops).any fun n => n % 0x100 == 0
  carry : r.carry = (latest? Operation.carried? ops).getD false

theorem derived_fresh : Derived [] {} where
  value target := by cases target <;> rfl
  negative := rfl
  zero := rfl
  carry := rfl

theorem Derived.perform {ops : List Operation} {r : Registers} (h : Derived ops r)
    (o : Operation) : Derived (ops ++ [o]) (o.perform r) where
  value target := by
    rw [Operation.get_perform, latest?_concat, h.value]
    cases o.written? target <;> rfl
  negative := by
    rw [(Operation.flag_perform r o).1, latest?_concat, h.negative]
    cases o.normalized? <;> rfl
  zero := by
    rw [(Operation.flag_perform r o).2, latest?_concat, h.zero]
    cases o.normalized? <;> rfl
  carry := by
    rw [Operation.carry_perform, latest?_concat, h.carry]
    cases o.carried? <;> rfl

def performAll (r : Registers) (ops : List Operation) : Registers :=
  ops.foldl Operation.perform r

theorem derived_performAll (ops : List Operation) : Derived ops (performAll {} ops) := by
  induction ops using List.reverseRecOn with
  | nil => exact derived_fresh
  | append_singleton ops o ih =>
    rw [performAll, List.foldl_append]
    exact ih.perform o

/-- After any operations on fresh registers, each register holds the last number that was written to
it, cut to a byte, N and Z are the top bit and zeroness of the last number that was cut to a byte, and
the carry is what it was last set to; what nothing has been said of is zero or clear. Only A, X and Y
can be written. To write a flag is one fault and to write anything else another one, and neither does
anything. -/
theorem performAll_derived (ops : List Operation) :
    let r := performAll {} ops
    Derived ops r ∧ ∀ name n,
      let write := Operation.set name n
      (outcome write.act r = .ok () ↔ name ∈ Register.names) ∧
      ((∃ e, outcome write.act r = .error e ∧ e.kind = .flagWrite) ↔ name ∈ Flag.names) ∧
      ((∃ e, outcome write.act r = .error e ∧ e.kind = .key) ↔
        name ∉ Register.names ∧ name ∉ Flag.names) ∧
      ∀ e, outcome write.act r = .error e → write.perform r = r := by
  intro r
  refine ⟨derived_performAll ops, fun name n => ?_⟩
  dsimp only
  rw [Operation.outcome_set]
  split_ifs with h hflag
  · have hflag : name ∉ Flag.names := Register.names_disjoint h
    simp [h, hflag]
  · simp [h, hflag, Operation.perform_refused h r n, Fault.kind]
  · simp [h, hflag, Operation.perform_refused h r n, Fault.kind]

/-- Writes that succeed and writes that are refused, in turn. -/
theorem performAll_derived_refused :
    let ops : List Operation :=
      [.set "A" 0x180, .set "Z" 0, .carry true, .set "X" (-1), .set "C" 0, .normalize 0x7F00,
        .set "Q" 0x80]
    let r := performAll {} ops
    (r.a : Int) = 0x80 ∧ (r.x : Int) = 0xFF ∧ (r.y : Int) = 0 ∧
      r.negative = false ∧ r.zero = true ∧ r.carry = true ∧
      (Operation.set "Q" 0x80).perform r = r := by
  intro ops r
  obtain ⟨h, hset⟩ := performAll_derived ops
  obtain ⟨-, -, hkey, hsame⟩ := hset "Q" 0x80
  obtain ⟨e, he, -⟩ := hkey.mpr (by decide)
  exact ⟨h.value .a, h.value .x, h.value .y, h.negative, h.zero, h.carry, hsame e he⟩

end Registers

end Micro6502
