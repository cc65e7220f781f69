import Micro6502.Memory
import Micro6502.Proofs.Outcome

namespace Micro6502

@[simp] theorem word_word (n : Int) : word (word n) = word n := by
  unfold word
  omega

theorem word_of_range {n : Int} (h₀ : 0 ≤ n) (h₁ : n ≤ 0xFFFF) : word n = n := by
  unfold word
  omega

namespace Bus

/-- One block of bytes answers at every address. -/
def Flat (b : Bus) : Prop :=
  ∃ r : Ram, r.size = 0x10000 ∧ b.mappings = [⟨0, 0xFFFF, .ram r⟩]

/-- The byte that is found at an address; zero where nothing answers. -/
def cell (b : Bus) (address : Int) : Byte :=
  match peek address b with
  | .ok data _ => byte data
  | .error _ _ => 0

theorem flat_blank : Flat flat := ⟨.zeros 0x10000, by simp [Ram.zeros, Ram.size], rfl⟩

@[simp] theorem cell_word (b : Bus) (address : Int) : b.cell (word address) = b.cell address := by
  simp [cell, peek]

/-- The log has no part in what is found. -/
@[simp] theorem cell_log (mappings : List Mapping) (log log' : Array Access) (address : Int) :
    (Bus.mk mappings log).cell address = (Bus.mk mappings log').cell address := by
  simp only [cell, peek]
  cases onFirst (word address) Device.read mappings <;> rfl

/-- A device that covers the address space answers first at every address. -/
theorem onFirst_flat {α : Type} (address : Int) (device : Device)
    (act : Int → EStateM Fault Device α) :
    onFirst (word address) act [⟨0, 0xFFFF, device⟩] =
      match act (word address) device with
      | .ok a device => .ok a [⟨0, 0xFFFF, device⟩]
      | .error e device => .error e [⟨0, 0xFFFF, device⟩] := by
  have h : 0 ≤ word address ∧ word address ≤ 0xFFFF := ⟨word_nonneg address, word_le address⟩
  cases hact : act (word address) device <;>
    simp only [onFirst, h, and_self, ↓reduceIte, Int.sub_zero, hact]

theorem peek_ram {r : Ram} (hr : r.size = 0x10000) (log : Array Access) (address : Int) :
    peek address ⟨[⟨0, 0xFFFF, .ram r⟩], log⟩ =
      .ok (r.bytes.getD (word address).toNat 0 : Byte) ⟨[⟨0, 0xFFFF, .ram r⟩], log⟩ := by
  have h : (word address).toNat < r.bytes.size := by
    have := word_nonneg address
    have := word_le address
    simp only [Ram.size] at hr
    omega
  simp [peek, onFirst_flat, Device.read, Ram.read, word_nonneg, h]

theorem cell_ram {r : Ram} (hr : r.size = 0x10000) (log : Array Access) (address : Int) :
    cell ⟨[⟨0, 0xFFFF, .ram r⟩], log⟩ address = r.bytes.getD (word address).toNat 0 := by
  simp [cell, peek_ram hr]

@[simp] theorem cell_blank (address : Int) : flat.cell address = 0 := by
  rw [flat, cell_ram (by simp [Ram.zeros, Ram.size])]
  simp only [Ram.zeros, Array.getD_eq_getD_getElem?, Array.getElem?_replicate]
  split <;> rfl

theorem peek_flat {b : Bus} (h : b.Flat) (address : Int) :
    peek address b = .ok (b.cell address : Int) b := by
  obtain ⟨mappings, log⟩ := b
  obtain ⟨r, hr, rfl⟩ := h
  rw [peek_ram hr, cell_ram hr]

theorem read_flat {b : Bus} (h : b.Flat) (address : Int) :
    read address b = .ok (b.cell address : Int)
      { b with log := b.log.push ⟨.read, word address, b.cell address⟩ } := by
  have hp := peek_flat h address
  obtain ⟨mappings, log⟩ := b
  simp only [peek] at hp
  cases hf : onFirst (word address) Device.read mappings with
  | ok data found =>
    simp only [hf, EStateM.Result.ok.injEq, Bus.mk.injEq, and_true] at hp
    obtain ⟨rfl, rfl⟩ := hp
    simp [read, hf]
  | error e found => simp [hf] at hp

/-- Writing a byte succeeds, is noted, and changes the cell at the address alone. -/
theorem write_flat {b : Bus} (h : b.Flat) (address : Int) (value : Byte) :
    ∃ b', write address value b = .ok () b' ∧ b'.Flat ∧
      b'.log = b.log.push ⟨.write, word address, value⟩ ∧
      ∀ other, b'.cell other = if word other = word address then value else b.cell other := by
  obtain ⟨mappings, log⟩ := b
  obtain ⟨r, hr, rfl⟩ := h
  have hlt : ∀ n, (word n).toNat < r.bytes.size := by
    intro n
    have := word_nonneg n
    have := word_le n
    simp only [Ram.size] at hr
    omega
  have hv : (value : Int) ≤ 0xFF := by
    have := value.toNat_lt
    omega
  have hs : (Ram.mk (r.bytes.set (word address).toNat value (hlt address))).size = 0x10000 := by
    simpa [Ram.size] using hr
  refine ⟨⟨[⟨0, 0xFFFF, .ram ⟨r.bytes.set (word address).toNat value (hlt address)⟩⟩],
    log.push ⟨.write, word address, value⟩⟩, ?_, ⟨_, hs, rfl⟩, rfl, ?_⟩
  · simp [write, onFirst_flat, Device.write, Ram.write, word_nonneg, hlt, hv]
  · intro other
    have he : (word address).toNat = (word other).toNat ↔ word other = word address := by
      have := word_nonneg address
      have := word_nonneg other
      omega
    rw [cell_ram hs, cell_ram hr]
    simp [Array.getD, hlt, Array.getElem_set, he]

end Bus

namespace Memory

def Flat (m : Memory) : Prop := m.bus.Flat

def cell (m : Memory) (address : Int) : Byte := m.bus.cell address

def noted (m : Memory) (address : Int) : Memory :=
  { m with bus := { m.bus with
    log := m.bus.log.push ⟨.read, word address, m.cell address⟩ } }

def stored (m : Memory) (address value : Int) : Memory :=
  { m with bus := after (Bus.write address (byte value)) m.bus }

def cleared (m : Memory) : Memory := { m with bus := { m.bus with log := #[] } }

@[simp] theorem cell_word (m : Memory) (address : Int) : m.cell (word address) = m.cell address :=
  Bus.cell_word m.bus address

theorem cell_of_word_eq {m : Memory} {address address' : Int} (h : word address = word address') :
    m.cell address = m.cell address' := by
  rw [← cell_word m address, h, cell_word]

@[simp] theorem cell_cleared (m : Memory) (address : Int) :
    m.cleared.cell address = m.cell address :=
  Bus.cell_log m.bus.mappings #[] m.bus.log address

@[simp] theorem cell_noted (m : Memory) (address other : Int) :
    (m.noted address).cell other = m.cell other :=
  Bus.cell_log m.bus.mappings _ m.bus.log other

@[simp] theorem cell_mk (bus : Bus) (origin pc sp address : Int) :
    (Memory.mk bus origin pc sp).cell address = bus.cell address := rfl

variable {m : Memory}

theorem Flat.cleared (h : m.Flat) : m.cleared.Flat := h

theorem Flat.noted (h : m.Flat) (address : Int) : (m.noted address).Flat := h

theorem Flat.move (h : m.Flat) (pc sp : Int) : Flat { m with pc, sp } := h

theorem read_flat (h : m.Flat) (address : Int) :
    read address m = .ok (m.cell address) (m.noted address) := by
  have hb : onBus (Bus.read address) m = .ok (m.cell address : Int) (m.noted address) := by
    simp only [onBus, Bus.read_flat h]
    rfl
  rw [read, bind_ok hb]
  simp only [byte_val]
  rfl

theorem write_flat (h : m.Flat) (address value : Int) :
    write address value m = .ok () (m.stored address value) := by
  obtain ⟨b, hw, -⟩ := Bus.write_flat h address (byte value)
  simp only [write, onBus, hw, stored, after_ok hw]

theorem Flat.stored (h : m.Flat) (address value : Int) : (m.stored address value).Flat := by
  obtain ⟨b, hw, hf, -⟩ := Bus.write_flat h address (byte value)
  simpa only [Memory.stored, Memory.Flat, after_ok hw] using hf

theorem cell_stored (h : m.Flat) (address value other : Int) :
    (m.stored address value).cell other =
      if word other = word address then byte value else m.cell other := by
  obtain ⟨b, hw, -, -, hc⟩ := Bus.write_flat h address (byte value)
  simp only [Memory.stored, cell_mk, after_ok hw, hc]
  rfl

theorem peek_flat (h : m.Flat) (address : Int) : peek address m = .ok (m.cell address) m := by
  have hb : onBus (Bus.peek address) m = .ok (m.cell address : Int) m := by
    simp only [onBus, Bus.peek_flat h]
    rfl
  rw [peek, bind_ok hb]
  simp only [byte_val]
  rfl

def cells (m : Memory) (start : Int) : Nat → List Byte
  | 0 => []
  | count + 1 => m.cell start :: m.cells (start + 1) count

@[simp] theorem length_cells (m : Memory) (start : Int) (count : Nat) :
    (m.cells start count).length = count := by
  induction count generalizing start with
  | zero => rfl
  | succ count ih => simp [cells, ih]

theorem cells_add (m : Memory) (start : Int) (j k : Nat) :
    m.cells start (j + k) = m.cells start j ++ m.cells (start + j) k := by
  induction j generalizing start with
  | zero => simp [cells]
  | succ j ih =>
    have hnext : start + 1 + (j : Int) = start + (j + 1 : Nat) := by omega
    rw [Nat.succ_add, cells, cells, ih, hnext]
    rfl

theorem cells_congr {m m' : Memory} (h : ∀ address, m'.cell address = m.cell address)
    (start : Int) (count : Nat) : m'.cells start count = m.cells start count := by
  induction count generalizing start with
  | zero => rfl
  | succ count ih => simp [cells, h, ih]

/-- Addresses count around the end of memory. -/
@[simp] theorem cells_word (m : Memory) (start : Int) (count : Nat) :
    m.cells (word start) count = m.cells start count := by
  have hstart : ∀ a b, word a = word b → m.cells a count = m.cells b count := by
    induction count with
    | zero => exact fun _ _ _ => rfl
    | succ count ih =>
      intro a b hab
      have hnext : word (a + 1) = word (b + 1) := by
        unfold word at hab ⊢
        omega
      rw [cells, cells, cell_of_word_eq hab, ih _ _ hnext]
  exact hstart _ _ (word_word start)

theorem peekMany_flat (h : m.Flat) (start : Int) (count : Nat) :
    peekMany start count m = .ok (m.cells start count) m := by
  induction count generalizing start with
  | zero => rfl
  | succ count ih =>
    rw [peekMany, bind_ok (peek_flat h start), bind_ok (ih (start + 1))]
    rfl

def fetched (m : Memory) : Memory := { m.noted m.pc with pc := word (m.pc + 1) }

def pushed (m : Memory) (value : Int) : Memory :=
  { m.stored (stackBase + m.sp) value with sp := (m.sp - 1) % 0x100 }

def pulled (m : Memory) : Memory :=
  { m.noted (stackBase + (m.sp + 1) % 0x100) with sp := (m.sp + 1) % 0x100 }

theorem Flat.fetched (h : m.Flat) : m.fetched.Flat := h

theorem Flat.pushed (h : m.Flat) (value : Int) : (m.pushed value).Flat := h.stored _ value

theorem Flat.pulled (h : m.Flat) : m.pulled.Flat := h

theorem fetch_flat (h : m.Flat) : fetch m = .ok (m.cell m.pc) m.fetched := by
  change (read m.pc >>= _) m = _
  rw [bind_ok (read_flat h m.pc)]
  rfl

theorem push_flat (h : m.Flat) (value : Int) : push value m = .ok () (m.pushed value) := by
  change (write (stackBase + m.sp) value >>= _) m = _
  rw [bind_ok (write_flat h _ value)]
  rfl

theorem pull_flat (h : m.Flat) :
    pull m = .ok (m.cell (stackBase + (m.sp + 1) % 0x100)) m.pulled :=
  read_flat (h.move m.pc ((m.sp + 1) % 0x100)) (stackBase + (m.sp + 1) % 0x100)

theorem cell_pushed (h : m.Flat) (value other : Int) :
    (m.pushed value).cell other =
      if word other = word (stackBase + m.sp) then byte value else m.cell other :=
  cell_stored h (stackBase + m.sp) value other

theorem pushPc_flat (h : m.Flat) :
    pushPc m = .ok () ((m.pushed (wordBytes m.pc).1).pushed (wordBytes m.pc).2) := by
  change (push (wordBytes m.pc).1 >>= fun _ => push (wordBytes m.pc).2) m = _
  rw [bind_ok (push_flat h _), push_flat (h.pushed _)]

theorem ret_eq (h : m.Flat) :
    ret m = .ok () { m.pulled.pulled with
      pc := word (wordOf (m.cell (stackBase + ((m.sp + 1) % 0x100 + 1) % 0x100))
        (m.cell (stackBase + (m.sp + 1) % 0x100))) } := by
  have hlo := cell_noted m (stackBase + (m.sp + 1) % 0x100)
    (stackBase + ((m.sp + 1) % 0x100 + 1) % 0x100)
  rw [ret, bind_ok (pull_flat h), bind_ok (pull_flat h.pulled), ← hlo]
  rfl

theorem ret_flat (h : m.Flat) :
    ∃ pc, ret m = .ok () { m.pulled.pulled with pc } :=
  ⟨_, ret_eq h⟩

def loaded (m : Memory) : Int → List Int → Memory
  | _, [] => m
  | address, value :: rest => (m.stored address value).loaded (address + 1) rest

theorem loadFrom_flat (h : m.Flat) (address : Int) (values : List Int) :
    loadFrom address values m = .ok () (m.loaded address values) := by
  induction values generalizing m address with
  | nil => rfl
  | cons value rest ih =>
    rw [loadFrom, bind_ok (write_flat h address value)]
    exact ih (h.stored address value) (address + 1)

theorem load_flat (h : m.Flat) (values : List Int) (start : Option Int) :
    load values start m = .ok values.length (m.loaded (start.getD m.origin) values) := by
  change (loadFrom (start.getD m.origin) values >>= _) m = _
  rw [bind_ok (loadFrom_flat h _ values)]
  rfl

theorem Flat.loaded (h : m.Flat) (address : Int) (values : List Int) :
    (m.loaded address values).Flat := by
  induction values generalizing m address with
  | nil => exact h
  | cons value rest ih => exact ih (h.stored address value) (address + 1)

theorem loaded_eq (m : Memory) (address : Int) (values : List Int) :
    m.loaded address values = { m with bus := (m.loaded address values).bus } := by
  induction values generalizing m address with
  | nil => rfl
  | cons value rest ih => exact ih (m.stored address value) (address + 1)

/-- Where nothing is stored, the byte stays as it is. -/
theorem cell_loaded (h : m.Flat) (address other : Int) (values : List Int)
    (hother : ∀ i < values.length, word (address + (i : Nat)) ≠ word other) :
    (m.loaded address values).cell other = m.cell other := by
  induction values generalizing m address with
  | nil => rfl
  | cons value rest ih =>
    have hhead : word other ≠ word address := by
      have := hother 0 (by simp)
      simpa using this.symm
    have htail : ∀ i < rest.length, word (address + 1 + (i : Nat)) ≠ word other := by
      intro i hi
      have := hother (i + 1) (by simpa using hi)
      rwa [Int.natCast_succ, Int.add_comm (i : Int), ← Int.add_assoc] at this
    rw [loaded, ih (h.stored address value) (address + 1) htail, cell_stored h, if_neg hhead]

/-- Where a value is stored, its byte is found. -/
theorem cell_loaded_at (h : m.Flat) (address : Int) {values : List Int}
    (hlength : values.length ≤ 0x10000) (i : Fin values.length) :
    (m.loaded address values).cell (address + (i : Nat)) = byte (values.get i) := by
  induction values generalizing m address with
  | nil => exact i.elim0
  | cons value rest ih =>
    rw [List.length_cons] at hlength
    cases i using Fin.cases with
    | zero =>
      have hlater : ∀ j < rest.length, word (address + 1 + (j : Nat)) ≠ word address := by
        intro j hj
        unfold word
        omega
      change ((m.stored address value).loaded (address + 1) rest).cell (address + 0) = _
      rw [Int.add_zero, cell_loaded (h.stored address value) _ _ _ hlater, cell_stored h,
        if_pos rfl]
      rfl
    | succ i =>
      have hrest := ih (h.stored address value) (address + 1) (by omega) i
      rw [Int.add_assoc, Int.add_comm 1] at hrest
      exact hrest

end Memory

end Micro6502
