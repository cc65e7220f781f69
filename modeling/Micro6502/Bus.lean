import Micro6502.Ram

namespace Micro6502

/-- A call that a probe received, with offsets from the start of its range. -/
inductive Probe.Call where
  | read (offset : Int)
  | write (offset data : Int)
  deriving DecidableEq, Repr

structure Probe where
  answer : Int
  calls : Array Probe.Call := #[]
  deriving DecidableEq, Repr

inductive Device where
  | ram (ram : Ram)
  | probe (probe : Probe)
  deriving DecidableEq, Repr

namespace Device

def read (offset : Int) : EStateM Fault Device Int
  | .ram r => match r.read offset with
    | .ok b r => .ok b (.ram r)
    | .error e r => .error e (.ram r)
  | .probe p => .ok p.answer (.probe { p with calls := p.calls.push (.read offset) })

def write (offset data : Int) : EStateM Fault Device Unit
  | .ram r => match r.write offset data with
    | .ok () r => .ok () (.ram r)
    | .error e r => .error e (.ram r)
  | .probe p => .ok () (.probe { p with calls := p.calls.push (.write offset data) })

end Device

structure Mapping where
  first : Int
  last : Int
  device : Device
  deriving DecidableEq, Repr

inductive AccessKind where
  | read | write
  deriving DecidableEq, Repr

structure Access where
  kind : AccessKind
  address : Int
  data : Int
  deriving DecidableEq, Repr

/-- The attached devices in the order of attachment, and the accesses since the log was taken. -/
structure Bus where
  mappings : List Mapping := []
  log : Array Access := #[]
  deriving DecidableEq, Repr

namespace Bus

def flat : Bus := { mappings := [⟨0, 0xFFFF, .ram (.zeros 0x10000)⟩] }

/-- Attaches a device behind those already there; an empty socket (`none`) is refused. -/
def attach (b : Bus) (first last : Int) (device : Option Device) : Except Fault Bus :=
  let attached (d : Device) : Bus := { b with mappings := b.mappings ++ [⟨first, last, d⟩] }
  if 0 ≤ first ∧ first ≤ last ∧ last ≤ 0xFFFF then
    match device with
    | none => .error .noDevice
    | some (.ram r) =>
      if (r.size : Int) = last - first + 1 then .ok (attached (.ram r))
      else .error (.ramMismatch r.size (last - first + 1))
    | some d => .ok (attached d)
  else .error (.addressRange first last)

def onFirst {α : Type} (address : Int) (act : Int → EStateM Fault Device α) :
    EStateM Fault (List Mapping) α
  | [] => .error (.unmapped address) []
  | ⟨first, last, device⟩ :: rest =>
    if first ≤ address ∧ address ≤ last then
      match act (address - first) device with
      | .ok a device => .ok a (⟨first, last, device⟩ :: rest)
      | .error e device => .error e (⟨first, last, device⟩ :: rest)
    else match onFirst address act rest with
      | .ok a rest => .ok a (⟨first, last, device⟩ :: rest)
      | .error e rest => .error e (⟨first, last, device⟩ :: rest)

def peek (address : Int) : EStateM Fault Bus Int := fun ⟨mappings, log⟩ =>
  match onFirst (word address) Device.read mappings with
  | .ok data mappings => .ok data ⟨mappings, log⟩
  | .error e mappings => .error e ⟨mappings, log⟩

def read (address : Int) : EStateM Fault Bus Int := fun ⟨mappings, log⟩ =>
  match onFirst (word address) Device.read mappings with
  | .ok data mappings => .ok data ⟨mappings, log.push ⟨.read, word address, data⟩⟩
  | .error e mappings => .error e ⟨mappings, log⟩

def write (address data : Int) : EStateM Fault Bus Unit := fun ⟨mappings, log⟩ =>
  match onFirst (word address) (Device.write · data) mappings with
  | .ok () mappings => .ok () ⟨mappings, log.push ⟨.write, word address, data⟩⟩
  | .error e mappings => .error e ⟨mappings, log⟩

/-- The accesses since the last call, oldest first; the log starts anew. -/
def takeLog : EStateM Fault Bus (List Access) := fun ⟨mappings, log⟩ =>
  .ok log.toList ⟨mappings, #[]⟩

def probeCalls (b : Bus) : List (Array Probe.Call) :=
  b.mappings.filterMap fun m => match m.device with
    | .probe p => some p.calls
    | .ram _ => none

end Bus

end Micro6502
