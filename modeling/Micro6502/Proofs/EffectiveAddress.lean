import Micro6502.Addressing
import Micro6502.Proofs.Plain

namespace Micro6502

namespace Memory

def wordAt (m : Memory) (lo hi : Int) : Int := m.cell lo + 0x100 * m.cell hi

def readOf (m : Memory) (address : Int) : Access := ⟨.read, word address, m.cell address⟩

theorem wordOf_cells (m : Memory) (lo hi : Int) :
    wordOf (m.cell lo) (m.cell hi) = m.wordAt lo hi := by
  have := (m.cell lo).toNat_lt
  have := (m.cell hi).toNat_lt
  unfold wordOf wordAt
  omega

end Memory

namespace Machine

/-- The machine after reads at the addresses, with its counter moved on by `count`. -/
def advanced (m : Machine) (count : Nat) (addresses : List Int) : Machine :=
  { m with memory := { m.memory with
    bus := { m.memory.bus with log := m.memory.bus.log ++ addresses.map m.memory.readOf }
    pc := word (m.memory.pc + count) } }

variable {m : Machine}

@[simp] theorem advanced_pc (m : Machine) (count : Nat) (addresses : List Int) :
    (m.advanced count addresses).memory.pc = word (m.memory.pc + count) := rfl

@[simp] theorem cell_advanced (m : Machine) (count : Nat) (addresses : List Int)
    (address : Int) : (m.advanced count addresses).memory.cell address = m.memory.cell address :=
  Bus.cell_log m.memory.bus.mappings _ m.memory.bus.log address

@[simp] theorem readOf_advanced (m : Machine) (count : Nat) (addresses : List Int) :
    (m.advanced count addresses).memory.readOf = m.memory.readOf := by
  funext address
  simp [Memory.readOf]

@[simp] theorem advanced_advanced (m : Machine) (j k : Nat) (first second : List Int) :
    (m.advanced j first).advanced k second = m.advanced (j + k) (first ++ second) := by
  have hpc : word (word (m.memory.pc + j) + k) = word (m.memory.pc + (j + k : Nat)) := by
    unfold word
    omega
  have hlog (log : Array Access) (a b : List Access) : log ++ a ++ b = log ++ (a ++ b) := by
    apply Array.ext'
    simp
  rw [advanced, readOf_advanced, advanced_pc, hpc]
  simp [advanced, hlog]

/-- A read by itself, where the counter is a word. -/
theorem noted_eq_advanced (hpc : word m.memory.pc = m.memory.pc) (address : Int) :
    { m with memory := m.memory.noted address } = m.advanced 0 [address] := by
  have hsame : word (m.memory.pc + (0 : Nat)) = m.memory.pc := by simpa using hpc
  rw [advanced, hsame]
  rfl

theorem Plain.advanced (h : m.Plain) (count : Nat) (addresses : List Int) :
    (m.advanced count addresses).Plain :=
  ⟨h.flat, h.bare⟩

end Machine

theorem signedOffset_byte (b : Byte) : signedOffset b = b.toInt8.toInt := by
  have := b.toNat_lt
  have hsigned : b.toInt8.toInt = if 2 * b.toNat < 256 then (b.toNat : Int) else b.toNat - 256 :=
    BitVec.toInt_eq_toNat_cond b.toBitVec
  rw [hsigned]
  dsimp only [signedOffset]
  omega

namespace Mode

open Machine

theorem nextInPage_eq (address : Int) :
    nextInPage address = if address % 0x100 = 0xFF then address - 0xFF else address + 1 := by
  unfold nextInPage
  split <;> omega

/-- What the mode denotes, from the bytes at the counter on. A word that serves as a pointer has its
high byte at the next address of the same page. -/
def effective (memory : Memory) (r : Registers) (mode : Mode) : Option Int :=
  let next := (memory.pc + 1) % 0x10000
  let b : Int := memory.cell memory.pc
  let w := memory.wordAt memory.pc next
  match mode with
  | implicit => none
  | relative => some ((memory.pc + 1 + (memory.cell memory.pc).toInt8.toInt) % 0x10000)
  | immediate => some memory.pc
  | zeroPage => some b
  | zeroPageX => some ((b + r.x) % 0x100)
  | zeroPageY => some ((b + r.y) % 0x100)
  | absolute => some w
  | absoluteX => some ((w + r.x) % 0x10000)
  | absoluteY => some ((w + r.y) % 0x10000)
  | indirect => some (memory.wordAt w (if w % 0x100 = 0xFF then w - 0xFF else w + 1))
  | indexedIndirect => some (memory.wordAt ((b + r.x) % 0x100) ((b + r.x + 1) % 0x100))
  | indirectIndexed => some ((memory.wordAt b ((b + 1) % 0x100) + r.y) % 0x10000)

/-- The addresses that are read on the way: those of the operand, then those of the pointer. -/
def visited (memory : Memory) (r : Registers) (mode : Mode) : List Int :=
  let next := (memory.pc + 1) % 0x10000
  let b : Int := memory.cell memory.pc
  let w := memory.wordAt memory.pc next
  match mode with
  | implicit => []
  | relative | immediate | zeroPage | zeroPageX | zeroPageY => [memory.pc]
  | absolute | absoluteX | absoluteY => [memory.pc, next]
  | indirect => [memory.pc, next, w, if w % 0x100 = 0xFF then w - 0xFF else w + 1]
  | indexedIndirect => [memory.pc, (b + r.x) % 0x100, (b + r.x + 1) % 0x100]
  | indirectIndexed => [memory.pc, b, (b + 1) % 0x100]

variable {m : Machine}

theorem fetch_plain (h : m.Plain) :
    fetch m = .ok (m.memory.cell m.memory.pc) (m.advanced 1 [m.memory.pc]) :=
  fetch_flat h.flat

/-- A read where the counter has been moved on. -/
theorem read_advanced (h : m.Plain) (count : Nat) (addresses : List Int) (address : Int) :
    read address (m.advanced count addresses) =
      .ok (m.memory.cell address) (m.advanced count (addresses ++ [address])) := by
  have hpc : word (m.advanced count addresses).memory.pc = (m.advanced count addresses).memory.pc :=
    word_word _
  rw [(h.advanced count addresses).read, noted_eq_advanced hpc, cell_advanced, advanced_advanced]
  rfl

theorem readWord_advanced (h : m.Plain) (count : Nat) (addresses : List Int) (lo hi : Int) :
    readWord lo hi (m.advanced count addresses) =
      .ok (m.memory.wordAt lo hi) (m.advanced count (addresses ++ [lo, hi])) := by
  rw [readWord, bind_ok (read_advanced h count addresses lo),
    bind_ok (read_advanced h count _ hi), ← m.memory.wordOf_cells, List.append_assoc]
  rfl

theorem fetchWord_plain (h : m.Plain) :
    fetchWord m = .ok (m.memory.wordAt m.memory.pc (word (m.memory.pc + 1)))
      (m.advanced 2 [m.memory.pc, word (m.memory.pc + 1)]) := by
  rw [fetchWord, bind_ok (fetch_plain h), bind_ok (fetch_plain (h.advanced _ _)), cell_advanced,
    advanced_advanced, ← m.memory.wordOf_cells]
  rfl

theorem zeroPageIndexed_plain (h : m.Plain) (index : Register) :
    zeroPageIndexed index m =
      .ok ((m.memory.cell m.memory.pc + m.registers.get index : Int) % 0x100)
        (m.advanced 1 [m.memory.pc]) := by
  rw [zeroPageIndexed, bind_ok (fetch_plain h)]
  rfl

theorem absoluteIndexed_plain (h : m.Plain) (index : Register) :
    absoluteIndexed index m =
      .ok (word (m.memory.wordAt m.memory.pc (word (m.memory.pc + 1)) + m.registers.get index))
        (m.advanced 2 [m.memory.pc, word (m.memory.pc + 1)]) := by
  rw [absoluteIndexed, bind_ok (fetchWord_plain h)]
  rfl

/-- Taking an operand gives what the mode denotes, moves the counter over the operand and reads the
addresses on the way; it changes nothing else. -/
theorem resolve_effective (mode : Mode) (h : m.Plain)
    (hpc : 0 ≤ m.memory.pc ∧ m.memory.pc ≤ 0xFFFF) :
    mode.resolve m =
      .ok (mode.effective m.memory m.registers)
        (m.advanced mode.operandLength (mode.visited m.memory m.registers)) := by
  have hfetch := fetch_plain h
  have hword := fetchWord_plain h
  cases mode with
  | implicit =>
    have hsame : word (m.memory.pc + (0 : Nat)) = m.memory.pc := by
      simpa using word_of_range hpc.1 hpc.2
    have hstays : m.advanced 0 [] = m := by
      rw [advanced, hsame]
      rfl
    rw [resolve, operandLength, visited, hstays]
    rfl
  | relative =>
    have htarget : word (word (m.memory.pc + 1) + signedOffset (m.memory.cell m.memory.pc)) =
        (m.memory.pc + 1 + (m.memory.cell m.memory.pc).toInt8.toInt) % 0x10000 := by
      rw [signedOffset_byte]
      unfold word
      omega
    rw [effective, resolve, bind_ok hfetch, ← htarget]
    rfl
  | immediate =>
    have hact : (fetch >>= fun _ => pure (some m.memory.pc)) m =
        .ok (some m.memory.pc) (m.advanced 1 [m.memory.pc]) := bind_ok hfetch
    exact hact
  | zeroPage =>
    rw [resolve, bind_ok hfetch]
    rfl
  | zeroPageX =>
    rw [resolve, bind_ok (zeroPageIndexed_plain h .x)]
    rfl
  | zeroPageY =>
    rw [resolve, bind_ok (zeroPageIndexed_plain h .y)]
    rfl
  | absolute =>
    rw [resolve, bind_ok hword]
    rfl
  | absoluteX =>
    rw [resolve, bind_ok (absoluteIndexed_plain h .x)]
    rfl
  | absoluteY =>
    rw [resolve, bind_ok (absoluteIndexed_plain h .y)]
    rfl
  | indirect =>
    rw [resolve, bind_ok hword, bind_ok (readWord_advanced h _ _ _ _), nextInPage_eq]
    rfl
  | indexedIndirect =>
    have hnext (n : Int) : (n % 0x100 + 1) % 0x100 = (n + 1) % 0x100 := by omega
    rw [resolve, bind_ok (zeroPageIndexed_plain h .x), bind_ok (readWord_advanced h _ _ _ _), hnext]
    rfl
  | indirectIndexed =>
    -- The fetched byte is used as an integer, so `fetch` is bound together with the conversion.
    have hpointer : (do return ((← fetch) : Int) : MachineM Int) m =
        .ok (m.memory.cell m.memory.pc : Int) (m.advanced 1 [m.memory.pc]) := bind_ok hfetch
    rw [resolve, bind_ok hpointer, bind_ok (readWord_advanced h _ _ _ _)]
    rfl

/-- An operand around the end of memory, and a pointer whose page ends between its two bytes. -/
theorem resolve_effective_straddling :
    let memory : Memory := (({ pc := 0xFFFF } : Memory).stored 0xFFFF 0xFF).stored 0 0x30
    let m : Machine := { memory := (memory.stored 0x30FF 0x34).stored 0x3000 0x12 }
    m.Plain ∧ (0 ≤ m.memory.pc ∧ m.memory.pc ≤ 0xFFFF) ∧
      resolve .indirect m =
        .ok (some 0x1234) (m.advanced 2 [0xFFFF, 0x0000, 0x30FF, 0x3000]) := by
  intro memory m
  have hblank : Memory.Flat { pc := 0xFFFF } := Bus.flat_blank
  have hmemory : memory.Flat := (hblank.stored _ _).stored _ _
  have hplain : m.Plain := ⟨(hmemory.stored _ _).stored _ _, rfl⟩
  have hpc : m.memory.pc = 0xFFFF := rfl
  have hcell (a : Int) : m.memory.cell a =
      if word a = word 0x3000 then byte 0x12 else if word a = word 0x30FF then byte 0x34 else
        if word a = word 0 then byte 0x30 else if word a = word 0xFFFF then byte 0xFF else
          Memory.cell { pc := 0xFFFF } a := by
    have hlast := Memory.cell_stored (hmemory.stored 0x30FF 0x34) 0x3000 0x12 a
    rw [Memory.cell_stored hmemory, Memory.cell_stored (hblank.stored 0xFFFF 0xFF),
      Memory.cell_stored hblank] at hlast
    exact hlast
  have heffective : effective m.memory m.registers .indirect = some 0x1234 := by
    simp [effective, Memory.wordAt, hcell, hpc, word, val_byte]
  have hvisited : visited m.memory m.registers .indirect = [0xFFFF, 0x0000, 0x30FF, 0x3000] := by
    simp [visited, Memory.wordAt, hcell, hpc, word, val_byte]
  have hresolve := resolve_effective .indirect hplain (by simp [hpc])
  rw [heffective, hvisited] at hresolve
  exact ⟨hplain, by simp [hpc], hresolve⟩

end Mode

end Micro6502
