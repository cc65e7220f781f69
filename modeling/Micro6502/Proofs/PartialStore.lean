import Micro6502.Proofs.FlatMemory

namespace Micro6502

/-- What can be offered to a bus: an empty socket, a new memory, or a probe with its answer. -/
inductive Part where
  | nothing
  | memory (size : Int)
  | probe (answer : Int)
  deriving DecidableEq, Repr

structure Offer where
  first : Int
  last : Int
  part : Part
  deriving DecidableEq, Repr

def Part.device : Part → Except Fault (Option Device)
  | nothing => .ok none
  | memory size => (Ram.ofSize size).map fun r => some (.ram r)
  | probe answer => .ok (some (.probe { answer }))

/-- What a part gives back if `data` is what was stored last: a probe keeps to its answer. -/
def Part.recall (data : Int) : Part → Int
  | probe answer => answer
  | _ => data

def Part.Takes (data : Int) : Part → Prop
  | probe _ => True
  | _ => 0 ≤ data ∧ data ≤ 0xFF

def Offer.covers (o : Offer) (address : Int) : Bool :=
  o.first ≤ word address ∧ word address ≤ o.last

theorem Offer.covers_congr {address other : Int} (hw : word other = word address) (o : Offer) :
    o.covers other = o.covers address := by
  rw [covers, covers, hw]

/-- The range lies in the address space, and the part fills it. -/
def Offer.Fits (o : Offer) : Prop :=
  0 ≤ o.first ∧ o.first ≤ o.last ∧ o.last ≤ 0xFFFF ∧ match o.part with
    | .nothing => False
    | .memory size => size = o.last - o.first + 1
    | .probe _ => True

theorem Ram.size_zeros {size : Int} (h : ¬ size ≤ 0) :
    ((Ram.zeros size.toNat).size : Int) = size := by
  simp only [Ram.size, Ram.zeros, Array.size_replicate]
  omega

namespace Bus

inductive Call where
  | attach (o : Offer)
  | read (address : Int)
  | peek (address : Int)
  | write (address data : Int)
  deriving Repr

def Call.address? : Call → Option Int
  | attach _ => none
  | read address | peek address | write address _ => some address

def Call.act : Call → EStateM Fault Bus (Option Int)
  | attach o => fun b => match o.part.device >>= b.attach o.first o.last with
    | .ok b' => .ok none b'
    | .error e => .error e b
  | read address => do return some (← Bus.read address)
  | peek address => do return some (← Bus.peek address)
  | write address data => do
    Bus.write address data
    return none

def Call.entries : Call → Option Int → Array Access
  | read address, some data => #[⟨.read, word address, data⟩]
  | write address data, _ => #[⟨.write, word address, data⟩]
  | _, _ => #[]

structure Event where
  call : Call
  result : Except Fault (Option Int)

def performAll (b : Bus) (calls : List Call) : Bus :=
  calls.foldl (fun b c => after c.act b) b

def history (b : Bus) : List Call → List Event
  | [] => []
  | c :: rest => ⟨c, outcome c.act b⟩ :: history (after c.act b) rest

namespace Event

def accepted? : Event → Option Offer
  | ⟨.attach o, .ok _⟩ => some o
  | _ => none

def stored? (address : Int) : Event → Option Int
  | ⟨.write place data, .ok _⟩ => if word place = word address then some data else none
  | _ => none

end Event

section History

variable (h : List Event) (address : Int)

def accepted : List Offer := h.filterMap Event.accepted?

def Mapped : Prop := ∃ o ∈ accepted h, o.covers address = true

/-- The first part that was put where the address lies. -/
def owner? : Option Part := ((accepted h).find? (·.covers address)).map (·.part)

def lastStored? : Option Int := (h.filterMap (·.stored? address)).getLast?

/-- What the history has a read of the address give: a memory gives what was stored last, or else
zero. -/
def remembered? : Option Int := (owner? h address).map (·.recall ((lastStored? h address).getD 0))

end History

end Bus

namespace Device

def answer (offset : Int) : Device → Int
  | .ram r => (r.bytes.getD offset.toNat 0 : Byte)
  | .probe p => p.answer

def part : Device → Part
  | .ram r => .memory r.size
  | .probe p => .probe p.answer

def seen (offset : Int) : Device → Device
  | .ram r => .ram r
  | .probe p => .probe { p with calls := p.calls.push (.read offset) }

def put (offset data : Int) : Device → Device
  | .ram r => .ram ⟨r.bytes.setIfInBounds offset.toNat (byte data)⟩
  | .probe p => .probe { p with calls := p.calls.push (.write offset data) }

@[simp] theorem part_seen (offset : Int) (d : Device) : (d.seen offset).part = d.part := by
  cases d <;> rfl

@[simp] theorem part_put (offset data : Int) (d : Device) :
    (d.put offset data).part = d.part := by
  cases d <;> simp [put, part, Ram.size]

@[simp] theorem answer_seen (offset other : Int) (d : Device) :
    (d.seen offset).answer other = d.answer other := by
  cases d <;> rfl

theorem answer_put_ne {offset other : Int} (h₀ : 0 ≤ offset) (h₁ : 0 ≤ other)
    (hne : other ≠ offset) (data : Int) (d : Device) :
    (d.put offset data).answer other = d.answer other := by
  cases d with
  | ram r =>
    have htoNat : offset.toNat ≠ other.toNat := by omega
    simp [put, answer, Array.getD_eq_getD_getElem?, Array.getElem?_setIfInBounds_ne htoNat]
  | probe p => rfl

theorem answer_put_ram {r : Ram} {offset data : Int} (hoffset : offset.toNat < r.bytes.size)
    (hdata : 0 ≤ data ∧ data ≤ 0xFF) : (put offset data (.ram r)).answer offset = data := by
  have hbyte := val_byte data
  simp only [put, answer, Array.getD_eq_getD_getElem?, Array.getElem?_setIfInBounds_self,
    if_pos hoffset, Option.getD_some]
  omega

end Device

namespace Mapping

def offer (m : Mapping) : Offer := ⟨m.first, m.last, m.device.part⟩

def answer (m : Mapping) (address : Int) : Int := m.device.answer (word address - m.first)

variable {m : Mapping} {address : Int}

theorem covers_offer :
    m.offer.covers address = true ↔ m.first ≤ word address ∧ word address ≤ m.last :=
  decide_eq_true_iff

/-- The bounds of a memory are never met: it is as large as its range. -/
theorem ram_bounds {r : Ram} (hf : m.offer.Fits) (hd : m.device = .ram r)
    (hc : m.offer.covers address = true) :
    0 ≤ word address - m.first ∧ (word address - m.first).toNat < r.bytes.size := by
  obtain ⟨hfirst, hlast⟩ := covers_offer.mp hc
  have hsize : (r.size : Int) = m.last - m.first + 1 := by
    have hpart := hf.2.2.2
    simpa only [offer, hd, Device.part] using hpart
  simp only [Ram.size] at hsize
  omega

theorem read_device (hf : m.offer.Fits) (hc : m.offer.covers address = true) :
    Device.read (word address - m.first) m.device =
      .ok (m.answer address) (m.device.seen (word address - m.first)) := by
  cases hd : m.device with
  | ram r =>
    have hb := ram_bounds hf hd hc
    simp only [Device.read, Ram.read, hb, and_self, ↓reduceDIte, answer, hd, Device.answer,
      Device.seen, Array.getD_eq_getD_getElem?, Array.getElem?_eq_getElem, Option.getD_some]
  | probe p => simp [Device.read, answer, hd, Device.answer, Device.seen]

theorem write_device (hf : m.offer.Fits) (hc : m.offer.covers address = true) {data : Int}
    (ht : m.device.part.Takes data) :
    Device.write (word address - m.first) data m.device =
      .ok () (m.device.put (word address - m.first) data) := by
  cases hd : m.device with
  | ram r =>
    have hb := ram_bounds hf hd hc
    rw [hd] at ht
    have hdata : 0 ≤ data ∧ data ≤ 0xFF := ht
    simp only [Device.write, Ram.write, hb, and_self, ↓reduceDIte, hdata, ↓reduceIte, Device.put,
      Array.setIfInBounds]
  | probe p => rfl

theorem answer_put (hf : m.offer.Fits) (hc : m.offer.covers address = true) {data : Int}
    (ht : m.device.part.Takes data) :
    (m.device.put (word address - m.first) data).answer (word address - m.first) =
      m.device.part.recall data := by
  cases hd : m.device with
  | ram r =>
    rw [hd] at ht
    exact Device.answer_put_ram (ram_bounds hf hd hc).2 ht
  | probe p => rfl

theorem write_refused (hf : m.offer.Fits) (hc : m.offer.covers address = true) {data : Int}
    (ht : ¬ m.device.part.Takes data) :
    Device.write (word address - m.first) data m.device = .error (.notByte data) m.device := by
  cases hd : m.device with
  | ram r =>
    have hb := ram_bounds hf hd hc
    rw [hd] at ht
    have hdata : ¬ (0 ≤ data ∧ data ≤ 0xFF) := ht
    simp only [Device.write, Ram.write, hb, and_self, ↓reduceDIte, hdata, ↓reduceIte]
  | probe p => exact absurd (hd ▸ trivial) ht

end Mapping

namespace Bus

/-- The device that answers at an address is the first one that covers it. -/
def found? (b : Bus) (address : Int) : Option Mapping :=
  b.mappings.find? (·.offer.covers address)

def answer? (b : Bus) (address : Int) : Option Int := (b.found? address).map (·.answer address)

variable {α : Type} {address : Int} {front back mappings : List Mapping} {m : Mapping}

/-- An address counts modulo the address space. -/
theorem answer?_congr (b : Bus) {other : Int} (hw : word other = word address) :
    b.answer? other = b.answer? address := by
  simp only [answer?, found?, Offer.covers_congr hw, Mapping.answer, hw]

theorem onFirst_unmapped (act : Int → EStateM Fault Device α)
    (h : ∀ x ∈ mappings, x.offer.covers address = false) :
    onFirst (word address) act mappings = .error (.unmapped (word address)) mappings := by
  induction mappings with
  | nil => rfl
  | cons x rest ih =>
    have hx : ¬ (x.first ≤ word address ∧ word address ≤ x.last) := by
      rw [← Mapping.covers_offer]
      simp [h x (.head _)]
    rw [onFirst, if_neg hx, ih fun y hy => h y (.tail _ hy)]

theorem onFirst_found (act : Int → EStateM Fault Device α)
    (h : ∀ x ∈ front, x.offer.covers address = false) (hm : m.offer.covers address = true) :
    onFirst (word address) act (front ++ m :: back) =
      match act (word address - m.first) m.device with
      | .ok a device => .ok a (front ++ { m with device } :: back)
      | .error e device => .error e (front ++ { m with device } :: back) := by
  induction front with
  | nil =>
    rw [List.nil_append, onFirst, if_pos (Mapping.covers_offer.mp hm)]
    rfl
  | cons x rest ih =>
    have hx : ¬ (x.first ≤ word address ∧ word address ≤ x.last) := by
      rw [← Mapping.covers_offer]
      simp [h x (.head _)]
    rw [List.cons_append, onFirst, if_neg hx, ih fun y hy => h y (.tail _ hy)]
    cases act (word address - m.first) m.device <;> rfl

/-- Where no device is found, none covers the address; else the first of them stands at some place
of the list. -/
theorem found?_eq_some {b : Bus} (h : b.found? address = some m) :
    ∃ front back, b.mappings = front ++ m :: back ∧
      (∀ x ∈ front, x.offer.covers address = false) ∧ m.offer.covers address = true := by
  obtain ⟨hm, front, back, hb, hfront⟩ := List.find?_eq_some_iff_append.mp h
  exact ⟨front, back, hb, fun x hx => by simpa using hfront x hx, hm⟩

/-- A device is replaced by another one: the answers at other addresses stay as they are if the answers
at its other offsets do. -/
theorem answer?_replaced {log : Array Access} {d : Device}
    (hfront : ∀ x ∈ front, x.offer.covers address = false) (hm : m.offer.covers address = true)
    (hd : ∀ offset, 0 ≤ offset → offset ≠ word address - m.first →
      d.answer offset = m.device.answer offset) (other : Int) :
    answer? ⟨front ++ { m with device := d } :: back, log⟩ other =
      if word other = word address then some (d.answer (word address - m.first))
      else answer? ⟨front ++ m :: back, log⟩ other := by
  have hcovers : ({ m with device := d } : Mapping).offer.covers other = m.offer.covers other := rfl
  by_cases hw : word other = word address
  · have hsame := Offer.covers_congr hw
    have hnone : front.find? (·.offer.covers other) = none :=
      List.find?_eq_none.mpr fun x hx => by simp [hsame, hfront x hx]
    have hself : ({ m with device := d } : Mapping).offer.covers other = true :=
      (hsame m.offer).trans hm
    rw [if_pos hw]
    simp only [answer?, found?, List.find?_append, hnone, Option.none_or, List.find?_cons, hself,
      Option.map_some, Mapping.answer, hw]
  · rw [if_neg hw]
    simp only [answer?, found?, List.find?_append, List.find?_cons, hcovers]
    cases front.find? (·.offer.covers other) with
    | some x => rfl
    | none =>
      cases hc : m.offer.covers other with
      | false => rfl
      | true =>
        -- the same device answers, but at another of its offsets
        have hfirst := (Mapping.covers_offer.mp hc).1
        exact congrArg some (hd (word other - m.first) (by omega) (by omega))

theorem answer?_attached (b : Bus) (m : Mapping) (address : Int) :
    answer? { b with mappings := b.mappings ++ [m] } address =
      (b.answer? address).or (if m.offer.covers address then some (m.answer address) else none) := by
  simp only [answer?, found?, List.find?_append]
  cases b.mappings.find? (·.offer.covers address) with
  | some x => rfl
  | none => cases hc : m.offer.covers address <;> simp [hc]

def Fitted (b : Bus) : Prop := ∀ m ∈ b.mappings, m.offer.Fits

/-- The same parts are there, and they give the same answers. -/
def Alike (b b' : Bus) : Prop :=
  b'.mappings.map (·.offer) = b.mappings.map (·.offer) ∧
    ∀ address, b'.answer? address = b.answer? address

variable {b : Bus}

theorem onFirst_of_none (act : Int → EStateM Fault Device α) (h : b.found? address = none) :
    onFirst (word address) act b.mappings = .error (.unmapped (word address)) b.mappings :=
  onFirst_unmapped act fun x hx => by simpa using List.find?_eq_none.mp h x hx

/-- What an access makes of the map, from what it makes of the device that is found. -/
theorem onFirst_of_some {act : Int → EStateM Fault Device α} {a : α} {d : Device}
    (hm : b.found? address = some m) (hact : act (word address - m.first) m.device = .ok a d)
    (hpart : d.part = m.device.part)
    (hd : ∀ offset, 0 ≤ offset → offset ≠ word address - m.first →
      d.answer offset = m.device.answer offset) :
    ∃ mappings, onFirst (word address) act b.mappings = .ok a mappings ∧
      mappings.map (·.offer) = b.mappings.map (·.offer) ∧
      ∀ log other, answer? ⟨mappings, log⟩ other =
        if word other = word address then some (d.answer (word address - m.first))
        else b.answer? other := by
  obtain ⟨front, back, hb, hfront, hc⟩ := found?_eq_some hm
  refine ⟨front ++ { m with device := d } :: back, ?_, ?_, fun log other => ?_⟩
  · rw [hb, onFirst_found act hfront hc, hact]
  · simp [hb, Mapping.offer, hpart]
  · rw [answer?_replaced hfront hc hd]
    simp only [answer?, found?, hb]

theorem Fitted.found (hb : b.Fitted) (hm : b.found? address = some m) :
    m.offer.Fits ∧ m.offer.covers address = true := by
  obtain ⟨front, back, hmappings, -, hc⟩ := found?_eq_some hm
  exact ⟨hb m (by simp [hmappings]), hc⟩

theorem onFirst_read (hb : b.Fitted) (hm : b.found? address = some m) :
    ∃ mappings, onFirst (word address) Device.read b.mappings = .ok (m.answer address) mappings ∧
      ∀ log, Alike b ⟨mappings, log⟩ := by
  obtain ⟨hf, hc⟩ := hb.found hm
  obtain ⟨mappings, hrun, hoffers, hanswers⟩ := onFirst_of_some hm (Mapping.read_device hf hc)
    (Device.part_seen _ _) fun offset _ _ => Device.answer_seen _ _ _
  refine ⟨mappings, hrun, fun log => ⟨hoffers, fun other => ?_⟩⟩
  rw [hanswers, Device.answer_seen]
  split
  · rename_i hw
    rw [answer?_congr b hw, answer?, hm]
    rfl
  · rfl

theorem onFirst_write (hb : b.Fitted) (hm : b.found? address = some m) {data : Int}
    (ht : m.device.part.Takes data) :
    ∃ mappings, onFirst (word address) (Device.write · data) b.mappings = .ok () mappings ∧
      mappings.map (·.offer) = b.mappings.map (·.offer) ∧
      ∀ log other, answer? ⟨mappings, log⟩ other =
        if word other = word address then some (m.device.part.recall data)
        else b.answer? other := by
  obtain ⟨hf, hc⟩ := hb.found hm
  have hfirst := (Mapping.covers_offer.mp hc).1
  rw [← Mapping.answer_put hf hc ht]
  exact onFirst_of_some hm (Mapping.write_device hf hc ht) (Device.part_put _ _ _)
    fun offset h₀ hne => Device.answer_put_ne (by omega) h₀ hne _ _

theorem onFirst_refused (hb : b.Fitted) (hm : b.found? address = some m) {data : Int}
    (ht : ¬ m.device.part.Takes data) :
    onFirst (word address) (Device.write · data) b.mappings =
      .error (.notByte data) b.mappings := by
  obtain ⟨front, back, hmappings, hfront, hc⟩ := found?_eq_some hm
  rw [hmappings, onFirst_found _ hfront hc, Mapping.write_refused (hb.found hm).1 hc ht]

/-- What fits is attached behind the devices that are there, and holds zeros. -/
theorem attach_fitting {o : Offer} (h : o.Fits) (b : Bus) :
    ∃ d : Device, (o.part.device >>= b.attach o.first o.last) =
        .ok { b with mappings := b.mappings ++ [⟨o.first, o.last, d⟩] } ∧
      d.part = o.part ∧ ∀ offset, d.answer offset = o.part.recall 0 := by
  obtain ⟨first, last, part⟩ := o
  obtain ⟨h₀, h₁, h₂, hpart⟩ := h
  have hrange : 0 ≤ first ∧ first ≤ last ∧ last ≤ 0xFFFF := ⟨h₀, h₁, h₂⟩
  cases part with
  | nothing => exact hpart.elim
  | memory size =>
    have hpos : ¬ size ≤ 0 := by
      simp only at hpart
      omega
    have hsize := Ram.size_zeros hpos
    refine ⟨.ram (.zeros size.toNat), ?_, ?_, fun offset => ?_⟩
    · simp only [Part.device, Ram.ofSize, if_neg hpos, Except.map, bind, Except.bind, attach,
        if_pos hrange, hsize, if_pos hpart]
    · rw [Device.part, hsize]
    · simp only [Device.answer, Ram.zeros, Array.getD_eq_getD_getElem?, Array.getElem?_replicate,
        Part.recall]
      split <;> rfl
  | probe answer =>
    refine ⟨.probe { answer }, ?_, rfl, fun offset => rfl⟩
    simp only [Part.device, bind, Except.bind, attach, if_pos hrange]

theorem fits_of_attach {o : Offer} {b' : Bus}
    (h : (o.part.device >>= b.attach o.first o.last) = .ok b') : o.Fits := by
  obtain ⟨first, last, part⟩ := o
  by_cases hrange : 0 ≤ first ∧ first ≤ last ∧ last ≤ 0xFFFF
  · refine ⟨hrange.1, hrange.2.1, hrange.2.2, ?_⟩
    cases part with
    | nothing => simp [Part.device, bind, Except.bind, attach, hrange] at h
    | memory size =>
      by_cases hpos : size ≤ 0
      · simp [Part.device, Ram.ofSize, hpos, Except.map, bind, Except.bind] at h
      · simp only [Part.device, Ram.ofSize, if_neg hpos, Except.map, bind, Except.bind, attach,
          if_pos hrange, Ram.size_zeros hpos] at h
        split at h
        · assumption
        · cases h
    | probe answer => trivial
  · simp only [bind, Except.bind] at h
    split at h
    · cases h
    · simp [attach, hrange] at h

def part? (b : Bus) (address : Int) : Option Part := (b.found? address).map (·.device.part)

/-- Everything that a call can do to a bus, with what it comes to. -/
inductive Performs (b : Bus) : Call → Except Fault (Option Int) → Bus → Prop
  | refused (o : Offer) (e : Fault) (h : ¬ o.Fits) : Performs b (.attach o) (.error e) b
  | attached (o : Offer) (d : Device) (h : o.Fits) (hpart : d.part = o.part)
      (hblank : ∀ offset, d.answer offset = o.part.recall 0) :
      Performs b (.attach o) (.ok none)
        { b with mappings := b.mappings ++ [⟨o.first, o.last, d⟩] }
  | unmapped (c : Call) (address : Int) (hc : c.address? = some address)
      (h : b.part? address = none) : Performs b c (.error (.unmapped (word address))) b
  | read (address n : Int) (b' : Bus) (h : b.answer? address = some n) (halike : Alike b b')
      (hlog : b'.log = b.log.push ⟨.read, word address, n⟩) :
      Performs b (.read address) (.ok (some n)) b'
  | peek (address n : Int) (b' : Bus) (h : b.answer? address = some n) (halike : Alike b b')
      (hlog : b'.log = b.log) : Performs b (.peek address) (.ok (some n)) b'
  | written (address data : Int) (b' : Bus) (p : Part) (h : b.part? address = some p)
      (ht : p.Takes data) (hoffers : b'.mappings.map (·.offer) = b.mappings.map (·.offer))
      (hanswers : ∀ other, b'.answer? other =
        if word other = word address then some (p.recall data) else b.answer? other)
      (hlog : b'.log = b.log.push ⟨.write, word address, data⟩) :
      Performs b (.write address data) (.ok none) b'
  | tooWide (address data : Int) (p : Part) (h : b.part? address = some p) (ht : ¬ p.Takes data) :
      Performs b (.write address data) (.error (.notByte data)) b

theorem performs_of_ok {c : Call} {r : Option Int} {b' : Bus} (h : c.act b = .ok r b')
    (hp : Performs b c (.ok r) b') : Performs b c (outcome c.act b) (after c.act b) := by
  rwa [outcome_ok h, after_ok h]

theorem performs_of_error {c : Call} {e : Fault} (h : c.act b = .error e b)
    (hp : Performs b c (.error e) b) : Performs b c (outcome c.act b) (after c.act b) := by
  rwa [outcome_error h, after_error h]

theorem performs_attach (b : Bus) (o : Offer) :
    Performs b (.attach o) (outcome (Call.attach o).act b) (after (Call.attach o).act b) := by
  by_cases hf : o.Fits
  · obtain ⟨d, hd, hpart, hblank⟩ := attach_fitting hf b
    exact performs_of_ok (by simp only [Call.act, hd]) (.attached o d hf hpart hblank)
  · cases hd : o.part.device >>= b.attach o.first o.last with
    | error e => exact performs_of_error (by simp only [Call.act, hd]) (.refused o e hf)
    | ok b' => exact absurd (fits_of_attach hd) hf

/-- Reading and peeking look at the devices alike: none is found, or one gives its data. -/
theorem onFirst_look (hb : b.Fitted) (address : Int) :
    (b.part? address = none ∧
      onFirst (word address) Device.read b.mappings =
        .error (.unmapped (word address)) b.mappings) ∨
    ∃ n mappings, b.answer? address = some n ∧
      onFirst (word address) Device.read b.mappings = .ok n mappings ∧
      ∀ log, Alike b ⟨mappings, log⟩ := by
  cases hm : b.found? address with
  | none => exact .inl ⟨by simp [part?, hm], onFirst_of_none Device.read hm⟩
  | some m =>
    obtain ⟨mappings, hrun, halike⟩ := onFirst_read hb hm
    exact .inr ⟨m.answer address, mappings, by simp [answer?, hm], hrun, halike⟩

theorem performs_read (hb : b.Fitted) (address : Int) :
    Performs b (.read address) (outcome (Call.read address).act b)
      (after (Call.read address).act b) := by
  obtain ⟨mappings, log⟩ := b
  rcases onFirst_look hb address with ⟨hnone, hrun⟩ | ⟨n, mappings', hn, hrun, halike⟩
  · have hread : Bus.read address ⟨mappings, log⟩ =
        .error (.unmapped (word address)) ⟨mappings, log⟩ := by
      simp only [Bus.read, hrun]
    exact performs_of_error (bind_error hread) (.unmapped _ address rfl hnone)
  · have hread : Bus.read address ⟨mappings, log⟩ =
        .ok n ⟨mappings', log.push ⟨.read, word address, n⟩⟩ := by
      simp only [Bus.read, hrun]
    exact performs_of_ok (bind_ok hread) (.read address n _ hn (halike _) rfl)

theorem performs_peek (hb : b.Fitted) (address : Int) :
    Performs b (.peek address) (outcome (Call.peek address).act b)
      (after (Call.peek address).act b) := by
  obtain ⟨mappings, log⟩ := b
  rcases onFirst_look hb address with ⟨hnone, hrun⟩ | ⟨n, mappings', hn, hrun, halike⟩
  · have hpeek : Bus.peek address ⟨mappings, log⟩ =
        .error (.unmapped (word address)) ⟨mappings, log⟩ := by
      simp only [Bus.peek, hrun]
    exact performs_of_error (bind_error hpeek) (.unmapped _ address rfl hnone)
  · have hpeek : Bus.peek address ⟨mappings, log⟩ = .ok n ⟨mappings', log⟩ := by
      simp only [Bus.peek, hrun]
    exact performs_of_ok (bind_ok hpeek) (.peek address n _ hn (halike _) rfl)

theorem performs_write (hb : b.Fitted) (address data : Int) :
    Performs b (.write address data) (outcome (Call.write address data).act b)
      (after (Call.write address data).act b) := by
  obtain ⟨mappings, log⟩ := b
  cases hm : found? ⟨mappings, log⟩ address with
  | none =>
    have hwrite : Bus.write address data ⟨mappings, log⟩ =
        .error (.unmapped (word address)) ⟨mappings, log⟩ := by
      simp only [Bus.write, onFirst_of_none _ hm]
    exact performs_of_error (bind_error hwrite) (.unmapped _ address rfl (by simp [part?, hm]))
  | some m =>
    have hpart : part? ⟨mappings, log⟩ address = some m.device.part := by simp [part?, hm]
    by_cases ht : m.device.part.Takes data
    · obtain ⟨mappings', hrun, hoffers, hanswers⟩ := onFirst_write hb hm ht
      have hwrite : Bus.write address data ⟨mappings, log⟩ =
          .ok () ⟨mappings', log.push ⟨.write, word address, data⟩⟩ := by
        simp only [Bus.write, hrun]
      exact performs_of_ok (bind_ok hwrite)
        (.written address data _ _ hpart ht hoffers (hanswers _) rfl)
    · have hwrite : Bus.write address data ⟨mappings, log⟩ =
          .error (.notByte data) ⟨mappings, log⟩ := by
        simp only [Bus.write, onFirst_refused hb hm ht]
      exact performs_of_error (bind_error hwrite) (.tooWide address data _ hpart ht)

theorem performs (hb : b.Fitted) (c : Call) :
    Performs b c (outcome c.act b) (after c.act b) := by
  cases c with
  | attach o => exact performs_attach b o
  | read address => exact performs_read hb address
  | peek address => exact performs_peek hb address
  | write address data => exact performs_write hb address data

section History

variable {h : List Event} {e : Event}

theorem accepted_concat (h : List Event) (e : Event) :
    accepted (h ++ [e]) = accepted h ++ e.accepted?.toList := by
  cases he : e.accepted? <;> simp [accepted, he]

theorem lastStored?_concat (h : List Event) (e : Event) (address : Int) :
    lastStored? (h ++ [e]) address = (e.stored? address).or (lastStored? h address) := by
  cases he : e.stored? address <;> simp [lastStored?, he]

theorem lastStored?_attach (h : List Event) (o : Offer) (r : Except Fault (Option Int))
    (address : Int) : lastStored? (h ++ [⟨.attach o, r⟩]) address = lastStored? h address :=
  lastStored?_concat h _ address

theorem owner?_congr (h : List Event) {other : Int} (hw : word other = word address) :
    owner? h other = owner? h address := by
  simp only [owner?, Offer.covers_congr hw]

theorem owner?_eq_none : owner? h address = none ↔ ¬ Mapped h address := by
  simp [owner?, Mapped]

/-- A part that is put on later answers only where no other one does. -/
theorem owner?_attached (h : List Event) (o : Offer) (r : Option Int) (address : Int) :
    owner? (h ++ [⟨.attach o, .ok r⟩]) address =
      (owner? h address).or (if o.covers address then some o.part else none) := by
  have ha : Event.accepted? ⟨.attach o, .ok r⟩ = some o := rfl
  simp only [owner?, accepted_concat, ha, Option.toList_some, List.find?_append]
  cases (accepted h).find? (·.covers address) with
  | some o' => rfl
  | none => cases hc : o.covers address <;> simp [hc]

/-- An event that neither attaches nor stores anything is soon forgotten. -/
theorem remembered?_quiet (ha : e.accepted? = none) (hs : ∀ address, e.stored? address = none)
    (address : Int) : remembered? (h ++ [e]) address = remembered? h address := by
  simp [remembered?, owner?, accepted_concat, ha, lastStored?_concat, hs]

theorem remembered?_eq_none : remembered? h address = none ↔ ¬ Mapped h address := by
  rw [remembered?, Option.map_eq_none_iff, owner?_eq_none]

/-- What is offered later has no say where something answers already. -/
theorem remembered?_attach (hm : Mapped h address) (o : Offer) (r : Except Fault (Option Int)) :
    remembered? (h ++ [⟨.attach o, r⟩]) address = remembered? h address := by
  cases r with
  | error e => exact remembered?_quiet rfl (fun _ => rfl) address
  | ok r =>
    have howner : (owner? h address).isSome = true :=
      Option.isSome_iff_ne_none.mpr fun hnone => owner?_eq_none.mp hnone hm
    rw [remembered?, remembered?, owner?_attached, lastStored?_attach, Option.or_of_isSome howner]

end History

/-- The bus is what the history has made of it. -/
structure Holds (h : List Event) (b : Bus) : Prop where
  offers : b.mappings.map (·.offer) = accepted h
  fits : ∀ o ∈ accepted h, o.Fits
  answers : ∀ address, b.answer? address = remembered? h address
  /-- Nothing is stored where nothing answers. -/
  bare : ∀ address, owner? h address = none → lastStored? h address = none

namespace Holds

variable {h : List Event} {b' : Bus} {e : Event}

theorem blank : Holds [] {} := ⟨rfl, by simp [accepted], fun _ => rfl, fun _ _ => rfl⟩

theorem fitted (hb : Holds h b) : b.Fitted := by
  intro m hm
  apply hb.fits
  rw [← hb.offers]
  exact List.mem_map_of_mem hm

theorem part?_eq (hb : Holds h b) (address : Int) : b.part? address = owner? h address := by
  rw [owner?, ← hb.offers, List.find?_map]
  simp [part?, found?, Mapping.offer, Function.comp_def]

/-- What neither attaches nor stores anything changes nothing that matters. -/
theorem quiet (hb : Holds h b) (halike : Alike b b') (ha : e.accepted? = none)
    (hs : ∀ address, e.stored? address = none) : Holds (h ++ [e]) b' := by
  have haccepted : accepted (h ++ [e]) = accepted h := by simp [accepted_concat, ha]
  refine ⟨?_, ?_, fun address => ?_, fun address hnone => ?_⟩
  · rw [halike.1, hb.offers, haccepted]
  · rw [haccepted]
    exact hb.fits
  · rw [halike.2, hb.answers, remembered?_quiet ha hs]
  · rw [owner?, haccepted] at hnone
    rw [lastStored?_concat, hs, Option.none_or, hb.bare address hnone]

theorem attached (hb : Holds h b) {o : Offer} {d : Device} (hf : o.Fits) (hpart : d.part = o.part)
    (hblank : ∀ offset, d.answer offset = o.part.recall 0) :
    Holds (h ++ [⟨.attach o, .ok none⟩])
      { b with mappings := b.mappings ++ [⟨o.first, o.last, d⟩] } := by
  have hoffer : Mapping.offer ⟨o.first, o.last, d⟩ = o := by rw [Mapping.offer, hpart]
  have haccepted : accepted (h ++ [⟨.attach o, .ok none⟩]) = accepted h ++ [o] :=
    accepted_concat h _
  refine ⟨?_, ?_, fun address => ?_, fun address hnone => ?_⟩
  · rw [List.map_append, hb.offers, haccepted, List.map_singleton, hoffer]
  · rw [haccepted]
    intro o' ho'
    rcases List.mem_append.mp ho' with ho' | ho'
    · exact hb.fits o' ho'
    · exact List.mem_singleton.mp ho' ▸ hf
  · rw [answer?_attached, hoffer, hb.answers, remembered?, remembered?, owner?_attached,
      lastStored?_attach]
    cases howner : owner? h address with
    | some p => rfl
    | none =>
      -- the new part is the first one here, and no earlier write can have succeeded
      rw [hb.bare address howner]
      simp only [Mapping.answer, hblank]
      cases o.covers address <;> rfl
  · rw [owner?_attached, Option.or_eq_none_iff] at hnone
    rw [lastStored?_attach, hb.bare address hnone.1]

theorem written (hb : Holds h b) {address data : Int} {p : Part} (hp : b.part? address = some p)
    (hoffers : b'.mappings.map (·.offer) = b.mappings.map (·.offer))
    (hanswers : ∀ other, b'.answer? other =
      if word other = word address then some (p.recall data) else b.answer? other) :
    Holds (h ++ [⟨.write address data, .ok none⟩]) b' := by
  have haccepted : accepted (h ++ [⟨.write address data, .ok none⟩]) = accepted h := by
    simp [accepted_concat, Event.accepted?]
  have hstored (other : Int) : lastStored? (h ++ [⟨.write address data, .ok none⟩]) other =
      if word address = word other then some data else lastStored? h other := by
    rw [lastStored?_concat, Event.stored?]
    split <;> rfl
  have howner {other : Int} (hw : word other = word address) : owner? h other = some p :=
    (owner?_congr h hw).trans ((hb.part?_eq address).symm.trans hp)
  have hsame (other : Int) :
      owner? (h ++ [⟨.write address data, .ok none⟩]) other = owner? h other := by
    rw [owner?, haccepted, owner?]
  refine ⟨?_, ?_, fun other => ?_, fun other hnone => ?_⟩
  · rw [hoffers, hb.offers, haccepted]
  · rw [haccepted]
    exact hb.fits
  · rw [hanswers, remembered?, hsame, hstored]
    by_cases hw : word other = word address
    · rw [if_pos hw, if_pos hw.symm, howner hw]
      rfl
    · rw [if_neg hw, if_neg (Ne.symm hw), hb.answers]
      rfl
  · rw [hsame] at hnone
    have hw : word address ≠ word other := by
      intro hw
      simp [howner hw.symm] at hnone
    rw [hstored, if_neg hw, hb.bare other hnone]

/-- One call. -/
theorem perform (hb : Holds h b) (c : Call) :
    Holds (h ++ [⟨c, outcome c.act b⟩]) (after c.act b) := by
  have hp := performs hb.fitted c
  generalize outcome c.act b = r at hp ⊢
  generalize after c.act b = b' at hp ⊢
  cases hp with
  | refused o e hf => exact hb.quiet ⟨rfl, fun _ => rfl⟩ rfl fun _ => rfl
  | attached o d hf hpart hblank => exact hb.attached hf hpart hblank
  | unmapped c address hc hnone =>
    cases c <;> exact hb.quiet ⟨rfl, fun _ => rfl⟩ rfl fun _ => rfl
  | read address n b' hn halike hlog => exact hb.quiet halike rfl fun _ => rfl
  | peek address n b' hn halike hlog => exact hb.quiet halike rfl fun _ => rfl
  | written address data b' p hpart ht hoffers hanswers hlog =>
    exact hb.written hpart hoffers hanswers
  | tooWide address data p hpart ht => exact hb.quiet ⟨rfl, fun _ => rfl⟩ rfl fun _ => rfl

theorem performAll (hb : Holds h b) (calls : List Call) :
    Holds (h ++ history b calls) (b.performAll calls) := by
  induction calls generalizing h b with
  | nil => simpa [history, Bus.performAll] using hb
  | cons c rest ih =>
    have hrest := ih (hb.perform c)
    rwa [List.append_assoc] at hrest

theorem outcome_look (hb : Holds h b) {c : Call} (hc : c ∈ [Call.read address, .peek address]) :
    outcome c.act b = match remembered? h address with
      | some n => .ok (some n)
      | none => .error (.unmapped (word address)) := by
  have hp := performs hb.fitted c
  have hnone (hn : b.part? address = none) : remembered? h address = none :=
    remembered?_eq_none.mpr (owner?_eq_none.mp ((hb.part?_eq address).symm.trans hn))
  generalize outcome c.act b = r at hp ⊢
  generalize after c.act b = b' at hp
  simp only [List.mem_cons, List.not_mem_nil, or_false] at hc
  rcases hc with rfl | rfl
  · cases hp with
    | unmapped _ place hplace hn =>
      cases hplace
      rw [hnone hn]
    | read _ n _ hn => rw [← hb.answers, hn]
  · cases hp with
    | unmapped _ place hplace hn =>
      cases hplace
      rw [hnone hn]
    | peek _ n _ hn => rw [← hb.answers, hn]

/-- No empty socket is ever attached. -/
theorem owner?_ne_nothing (hb : Holds h b) (address : Int) : owner? h address ≠ some .nothing := by
  intro howner
  obtain ⟨o, ho, hpart⟩ := Option.map_eq_some_iff.mp howner
  have hf := (hb.fits o (List.mem_of_find?_eq_some ho)).2.2.2
  rw [hpart] at hf
  exact hf

theorem outcome_write (hb : Holds h b) (address data : Int) (e : Fault) :
    outcome (Call.write address data).act b = .error e ↔
      e = .unmapped (word address) ∧ ¬ Mapped h address ∨
      e = .notByte data ∧ ¬ (0 ≤ data ∧ data ≤ 0xFF) ∧
        ∃ size, owner? h address = some (.memory size) := by
  have hp := performs hb.fitted (.write address data)
  rw [← owner?_eq_none, ← hb.part?_eq]
  have hne := hb.owner?_ne_nothing address
  rw [← hb.part?_eq] at hne
  generalize outcome (Call.write address data).act b = r at hp ⊢
  generalize after (Call.write address data).act b = b' at hp
  cases hp with
  | unmapped _ place hplace hnone =>
    cases hplace
    simp [hnone, eq_comm]
  | written _ _ _ p hpart ht =>
    cases p with
    | nothing => exact absurd hpart hne
    | memory size =>
      have hdata : 0 ≤ data ∧ data ≤ 0xFF := ht
      simp [hpart, hdata]
    | probe answer => simp [hpart]
  | tooWide _ _ p hpart ht =>
    cases p with
    | nothing => exact absurd hpart hne
    | memory size =>
      have hdata : ¬ (0 ≤ data ∧ data ≤ 0xFF) := ht
      simp [hpart, hdata, eq_comm]
    | probe answer => exact absurd trivial ht

theorem outcome_attach (b : Bus) (o : Offer) :
    outcome (Call.attach o).act b = .ok none ↔ o.Fits := by
  have hp := performs_attach b o
  generalize outcome (Call.attach o).act b = r at hp ⊢
  generalize after (Call.attach o).act b = b' at hp
  cases hp with
  | refused _ e hf => simp [hf]
  | attached _ d hf => simp [hf]
  | unmapped _ _ hplace => cases hplace

end Holds

/-- The bus is a partial store, whatever calls were made on it before. To read or peek at an address
fails exactly where no part has been put, and otherwise gives what the history remembers: of a memory
the data that were stored last, or zero. A write fails only there and where a memory is to take what is
no byte, so never at the bounds of a memory. A part is accepted exactly if it fits, and changes nothing
that is read where another one answers already. What fails leaves the whole bus as it was; what
succeeds adds its own entry to the log, if it is a read or a write, and else none. -/
theorem partial_store (calls : List Call) :
    let h := history {} calls
    let b := performAll {} calls
    (∀ address, ∀ c ∈ [Call.read address, .peek address],
      (∀ e, outcome c.act b = .error e ↔ e = .unmapped (word address) ∧ ¬ Mapped h address) ∧
      ∀ r, outcome c.act b = .ok r ↔ r = remembered? h address ∧ Mapped h address) ∧
    (∀ address data e, outcome (Call.write address data).act b = .error e ↔
      e = .unmapped (word address) ∧ ¬ Mapped h address ∨
      e = .notByte data ∧ ¬ (0 ≤ data ∧ data ≤ 0xFF) ∧
        ∃ size, owner? h address = some (.memory size)) ∧
    (∀ o, (outcome (Call.attach o).act b = .ok none ↔ o.Fits) ∧
      ∀ address, Mapped h address → ∀ c ∈ [Call.read address, .peek address],
        outcome c.act (after (Call.attach o).act b) = outcome c.act b) ∧
    (∀ (c : Call) e, outcome c.act b = .error e → after c.act b = b) ∧
    ∀ (c : Call) r, outcome c.act b = .ok r → (after c.act b).log = b.log ++ c.entries r := by
  intro h b
  have hb : Holds h b := Holds.blank.performAll calls
  refine ⟨fun address c hc => ?_, hb.outcome_write, fun o => ⟨Holds.outcome_attach b o,
    fun address hm c hc => ?_⟩, fun c e he => ?_, fun c r hr => ?_⟩
  · rw [hb.outcome_look hc]
    cases hr : remembered? h address with
    | none => simp [remembered?_eq_none.mp hr, eq_comm]
    | some n =>
      have hm : Mapped h address := Classical.not_not.mp fun hm => by
        simp [remembered?_eq_none.mpr hm] at hr
      simp [hm, eq_comm]
  · rw [(hb.perform (.attach o)).outcome_look hc, hb.outcome_look hc, remembered?_attach hm]
  · have hp := performs hb.fitted c
    rw [he] at hp
    generalize after c.act b = b' at hp ⊢
    cases hp <;> rfl
  · have hp := performs hb.fitted c
    rw [hr] at hp
    generalize after c.act b = b' at hp ⊢
    cases hp with
    | attached => simp [Call.entries]
    | _ => simp [*, Call.entries]

/-- Of two memories that share an address the first one answers there, before and after the other. -/
example :
    let calls : List Call := [.attach ⟨0x10, 0x11, .memory 2⟩, .write 0x10011 7,
      .attach ⟨0x11, 0x12, .memory 2⟩, .attach ⟨0x12, 0x13, .memory 3⟩, .write 0x12 0x100]
    (history {} calls).map (·.result.toOption) =
        [some none, some none, some none, none, none] ∧
      remembered? (history {} calls) 0x11 = some 7 ∧
      remembered? (history {} calls) 0x12 = some 0 ∧
      remembered? (history {} calls) 0x13 = none := by decide

end Bus

end Micro6502
