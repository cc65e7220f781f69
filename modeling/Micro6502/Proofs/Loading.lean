import Micro6502.HexDump
import Micro6502.Proofs.FlatMemory

namespace Micro6502

namespace Memory

variable {m m' : Memory}

theorem loaded_append (m : Memory) (address : Int) (first rest : List Int) :
    m.loaded address (first ++ rest) =
      (m.loaded address first).loaded (address + (first.length : Nat)) rest := by
  induction first generalizing m address with
  | nil => simp [loaded]
  | cons value first ih =>
    have hnext : address + ((value :: first).length : Nat) = address + 1 + (first.length : Nat) := by
      rw [List.length_cons]
      omega
    rw [List.cons_append, loaded, ih, hnext]
    rfl

/-- The last 65536 values have the last word. -/
theorem cell_loaded_last (h : m.Flat) (address : Int) {values : List Int} {i : Nat}
    (hi : i < values.length) (hlast : values.length ≤ i + 0x10000) :
    (m.loaded address values).cell (address + i) = byte values[i] := by
  have hbefore : (values.take i).length = i := by simp [Nat.le_of_lt hi]
  have hrest : (values.drop i).length ≤ 0x10000 := by
    rw [List.length_drop]
    omega
  have hfirst : 0 < (values.drop i).length := by
    rw [List.length_drop]
    omega
  have hparts := loaded_append m address (values.take i) (values.drop i)
  rw [List.take_append_drop, hbefore] at hparts
  have hat := cell_loaded_at (h.loaded address (values.take i)) (address + i) hrest ⟨0, hfirst⟩
  rw [Int.natCast_zero, Int.add_zero] at hat
  rw [hparts, hat]
  simp

structure Copied (m m' : Memory) (program : List Byte) (place : Int) : Prop where
  flat : m'.Flat
  pc : m'.pc = m.pc
  sp : m'.sp = m.sp
  origin : m'.origin = m.origin
  kept : ∀ address, (∀ i < program.length, word (place + (i : Nat)) ≠ word address) →
    m'.cell address = m.cell address
  found : ∀ i < program.length, program.length ≤ i + 0x10000 →
    program[i]? = some (m'.cell (place + (i : Nat)))

theorem loaded_copied (h : m.Flat) (program : List Byte) (place : Int) :
    m.Copied (m.loaded place (byteValues program)) program place := by
  have hlength : (byteValues program).length = program.length := by simp [byteValues]
  have hsame := loaded_eq m place (byteValues program)
  refine ⟨h.loaded place _, ?_, ?_, ?_, ?_, ?_⟩
  · rw [hsame]
  · rw [hsame]
  · rw [hsame]
  · intro address hother
    apply cell_loaded h
    rwa [hlength]
  · intro i hi hlast
    rw [cell_loaded_last h place (hlength ▸ hi) (hlength ▸ hlast)]
    simp [byteValues, hi]

/-- All bytes are found again if and only if the program is the same wherever it meets itself. -/
theorem Copied.whole_iff {program : List Byte} {place : Int} (h : m.Copied m' program place) :
    (∀ i < program.length, program[i]? = some (m'.cell (place + (i : Nat)))) ↔
      ∀ i, i + 0x10000 < program.length → program[i]? = program[i + 0x10000]? := by
  -- the addresses of bytes 65536 apart are one
  have hround (i : Nat) : m'.cell (place + (i + 0x10000 : Nat)) = m'.cell (place + (i : Nat)) := by
    apply cell_of_word_eq
    unfold word
    omega
  constructor
  · intro hfound i hi
    rw [hfound i (by omega), hfound (i + 0x10000) hi, hround]
  · intro hsame
    -- downwards, from the bytes that nothing is stored over
    suffices hdown : ∀ k i, program.length - i = k → i < program.length →
        program[i]? = some (m'.cell (place + (i : Nat))) from
      fun i hi => hdown _ i rfl hi
    intro k
    induction k using Nat.strongRecOn with
    | ind k ih =>
      intro i hk hi
      by_cases hlast : program.length ≤ i + 0x10000
      · exact h.found i hi hlast
      · have hlater : i + 0x10000 < program.length := by omega
        rw [hsame i hlater, ih _ (by omega) (i + 0x10000) rfl hlater, hround]

end Memory

namespace Program

variable {m : Memory} {program : List Byte} {start : Option Int}

theorem load_refused (hlong : 0x10000 < start.getD m.origin + (program.length : Nat)) :
    load program start m = .error (.doesNotFit program.length (start.getD m.origin)) m := by
  rw [load, bind_ok (get_ok m), if_pos hlong]
  rfl

theorem load_flat (h : m.Flat) (hfits : ¬ 0x10000 < start.getD m.origin + (program.length : Nat)) :
    load program start m =
      .ok program.length (m.loaded (start.getD m.origin) (byteValues program)) := by
  have hlength : (byteValues program).length = program.length := by simp [byteValues]
  rw [load, bind_ok (get_ok m), if_neg hfits, ← hlength]
  exact Memory.load_flat h (byteValues program) (some (start.getD m.origin))

/-- What loading a program at an origin comes to: all or nothing. It is refused exactly if it would
pass the end; otherwise it is copied, and whole unless it meets itself with other bytes. -/
structure Loads (m : Memory) (program : List Byte) (origin : Int)
    (result : EStateM.Result Fault Memory Nat) : Prop where
  refused : (∃ e m', result = .error e m') ↔ 0x10000 < origin + (program.length : Nat)
  unchanged : ∀ e m', result = .error e m' → e.kind = .value ∧ m' = m
  copied : ∀ n m', result = .ok n m' → n = program.length ∧ m.Copied m' program origin ∧
    ((∀ i < program.length, program[i]? = some (m'.cell (origin + (i : Nat)))) ↔
      ∀ i, i + 0x10000 < program.length → program[i]? = program[i + 0x10000]?)

theorem load_loads (h : m.Flat) (program : List Byte) (start : Option Int) :
    Loads m program (start.getD m.origin) (load program start m) := by
  by_cases hlong : 0x10000 < start.getD m.origin + (program.length : Nat)
  · rw [load_refused hlong]
    refine ⟨⟨fun _ => hlong, fun _ => ⟨_, _, rfl⟩⟩, ?_, ?_⟩
    · intro e m' he
      cases he
      exact ⟨rfl, rfl⟩
    · intro n m' hn
      cases hn
  · rw [load_flat h hlong]
    have hcopied := Memory.loaded_copied h program (start.getD m.origin)
    refine ⟨⟨?_, fun habove => absurd habove hlong⟩, ?_, ?_⟩
    · rintro ⟨e, m', he⟩
      cases he
    · intro e m' he
      cases he
    · intro n m' hn
      cases hn
      exact ⟨rfl, hcopied, hcopied.whole_iff⟩

/-- Programs and hex dumps are loaded as a whole or not at all, and a faulty dump not at all. -/
theorem load_atomic (h : m.Flat) (start : Option Int) :
    (∀ program, Loads m program (start.getD m.origin) (load program start m)) ∧
      ∀ text, match HexDump.parse text with
        | .ok program => Loads m program (start.getD m.origin) (HexDump.load text start m)
        | .error e => HexDump.load text start m = .error e m := by
  refine ⟨fun program => load_loads h program start, fun text => ?_⟩
  cases hp : HexDump.parse text with
  | ok program =>
    rw [HexDump.load, hp]
    exact load_loads h program start
  | error e =>
    rw [HexDump.load, hp]
    rfl

/-- A program across the end of memory. -/
theorem load_atomic_wrapping :
    Memory.Flat {} ∧ ∃ m', load [0xA9, 0x05] (some (-1)) {} = .ok 2 m' ∧
      m'.cell 0xFFFF = 0xA9 ∧ m'.cell 0 = 0x05 := by
  have hblank : Memory.Flat {} := Bus.flat_blank
  have hloads : Loads {} [0xA9, 0x05] (-1) (load [0xA9, 0x05] (some (-1)) {}) :=
    (load_atomic hblank (some (-1))).1 [0xA9, 0x05]
  refine ⟨hblank, ?_⟩
  cases hr : load [0xA9, 0x05] (some (-1)) {} with
  | error e m' => exact absurd (hloads.refused.mp ⟨e, m', hr⟩) (by decide)
  | ok n m' =>
    obtain ⟨hn, -, hwhole⟩ := hloads.copied n m' hr
    have hfound := hwhole.mpr (fun i hi => absurd hi (by simp))
    have hfirst := Option.some.inj (hfound 0 (by decide))
    have hsecond := Option.some.inj (hfound 1 (by decide))
    refine ⟨m', by rw [hn]; rfl, ?_, hsecond.symm⟩
    rw [← Memory.cell_word] at hfirst
    exact hfirst.symm

/-- One byte more than the memory holds: the first byte is lost, and no fault tells of it. -/
theorem load_overwrites :
    let program : List Byte := 0x01 :: List.replicate 0x10000 0x00
    Memory.Flat {} ∧ ∃ m', load program (some (-1)) {} = .ok program.length m' ∧
      ¬ ∀ i < program.length, program[i]? = some (m'.cell (-1 + (i : Nat))) := by
  intro program
  have hlength : program.length = 0x10001 := by
    simp only [program]
    rw [List.length_cons, List.length_replicate]
  have hfirst : program[0]? = some 0x01 := List.getElem?_cons_zero
  have hlast : program[0x10000]? = some 0x00 := by
    simp only [program]
    rw [List.getElem?_cons_succ, List.getElem?_replicate_of_lt (by decide)]
  clear_value program
  have hblank : Memory.Flat {} := Bus.flat_blank
  have hfits : ¬ 0x10000 < (some (-1) : Option Int).getD 0x0600 + (program.length : Nat) := by
    rw [hlength]
    decide
  have hcopied := Memory.loaded_copied hblank program (-1)
  refine ⟨hblank, _, load_flat hblank hfits, fun hfound => ?_⟩
  have hsame := hcopied.whole_iff.mp hfound 0 (by rw [hlength]; decide)
  rw [hfirst, Nat.zero_add, hlast] at hsame
  exact absurd (Option.some.inj hsame) (by decide)

end Program

end Micro6502
