import Micro6502.Proofs.Boot
import Micro6502.Proofs.Reading
import Micro6502.Proofs.Stopping

namespace Micro6502

namespace Machine

variable {c : IoConfig} {m m' m₁ m₂ : Machine} {j k : Nat}

def ReadAt (m : Machine) (address : Int) : Prop :=
  ∃ a ∈ m.memory.bus.log.toList, a.kind = .read ∧ a.address = address

theorem readAt_noted (m : Machine) (address other : Int) :
    ReadAt { m with memory := m.memory.noted address } other ↔
      m.ReadAt other ∨ other = word address := by
  simp [ReadAt, Memory.noted, or_and_right, exists_or, eq_comm]

/-- A read is logged where no peripheral answers it. -/
theorem readAt_asked (hc : m.Equipped c) (address other : Int) :
    (m.asked address).ReadAt other ↔
      m.ReadAt other ∨ (other = word address ∧ Unanswered c address) := by
  obtain ⟨io, hio, rfl⟩ := Option.map_eq_some_iff.mp hc
  by_cases hu : Unanswered io.config address
  · have hasked : m.asked address = { m with memory := m.memory.noted address } := by
      simp [asked, hio, hu.supply]
    rw [hasked, readAt_noted]
    simp [hu]
  · have hasked : (m.asked address).memory = m.memory := by
      rw [Unanswered, not_and_or, not_not, not_not] at hu
      unfold asked Io.supply
      rcases hu with hu | hu
      · simp [hio, hu]
      · simp only [hio, hu, Option.bind_some]
        split_ifs <;> rfl
    simp [ReadAt, hasked, hu]

theorem readAt_shown (h : m.memory.Flat) (address value other : Int) :
    (m.shown address value).ReadAt other ↔ m.ReadAt other := by
  obtain ⟨b, hwrite, -, hlog, -⟩ := Bus.write_flat h address (byte value)
  simp [ReadAt, shown, Memory.stored, after_ok hwrite, hlog, or_and_right, exists_or]

/-- From `m` to `m'` the counter passes over `count` bytes. The log gets the reads of these, and
besides only such as no peripheral answers. -/
structure Traced (c : IoConfig) (m : Machine) (count : Nat) (m' : Machine) : Prop where
  flat : m'.memory.Flat
  equipped : m'.Equipped c
  pc : word m'.memory.pc = word (m.memory.pc + count)
  kept : ∀ a, m.ReadAt a → m'.ReadAt a
  passed : ∀ i < count, m'.ReadAt (word (m.memory.pc + (i : Nat)))
  only : ∀ a, m'.ReadAt a →
    m.ReadAt a ∨ Unanswered c a ∨ ∃ i < count, a = word (m.memory.pc + (i : Nat))

namespace Traced

theorem refl (h : m.memory.Flat) (hc : m.Equipped c) : Traced c m 0 m :=
  ⟨h, hc, by simp, fun _ ha => ha, nofun, fun _ ha => .inl ha⟩

theorem trans (h : Traced c m j m₁) (h' : Traced c m₁ k m₂) : Traced c m (j + k) m₂ := by
  have hpc : word m₁.memory.pc = word (m.memory.pc + j) := h.pc
  -- the bytes of the second part lie behind those of the first
  have hplace (i : Nat) : word (m₁.memory.pc + i) = word (m.memory.pc + (j + i : Nat)) := by
    unfold word at hpc ⊢
    omega
  refine ⟨h'.flat, h'.equipped, h'.pc.trans (hplace k), fun a ha => h'.kept a (h.kept a ha),
    fun i hi => ?_, fun a ha => ?_⟩
  · by_cases hij : i < j
    · exact h'.kept _ (h.passed i hij)
    · have hlater := h'.passed (i - j) (by omega)
      rwa [hplace, Nat.add_sub_cancel' (by omega)] at hlater
  · rcases h'.only a ha with ha | ha | ⟨i, hi, rfl⟩
    · rcases h.only a ha with ha | ha | ⟨i, hi, rfl⟩
      · exact .inl ha
      · exact .inr (.inl ha)
      · exact .inr (.inr ⟨i, by omega, rfl⟩)
    · exact .inr (.inl ha)
    · exact .inr (.inr ⟨j + i, by omega, hplace i⟩)

end Traced

theorem fetched_traced (h : m.memory.Flat) (hc : m.Equipped c) :
    Traced c m 1 { m with memory := m.memory.fetched } := by
  have hread (a : Int) : ReadAt { m with memory := m.memory.fetched } a ↔
      m.ReadAt a ∨ a = word m.memory.pc := readAt_noted m m.memory.pc a
  refine ⟨h.fetched, hc, word_word _, fun a ha => (hread a).mpr (.inl ha), fun i hi => ?_,
    fun a ha => ?_⟩
  · obtain rfl : i = 0 := by omega
    exact (hread _).mpr (.inr (by simp))
  · rcases (hread a).mp ha with ha | rfl
    · exact .inl ha
    · exact .inr (.inr ⟨0, by decide, by simp⟩)

theorem asked_traced (h : m.memory.Flat) (hc : m.Equipped c) (address : Int) :
    Traced c m 0 (m.asked address) := by
  have hsteady : Steady m (m.asked address) := by
    rw [← after_ok (read_flat h address)]
    exact (Effect.read address).steady h
  refine ⟨hsteady.flat, hsteady.config.trans hc, by simp [(m.stays_asked address).pc],
    fun a ha => (readAt_asked hc address a).mpr (.inl ha), nofun, fun a ha => ?_⟩
  rcases (readAt_asked hc address a).mp ha with ha | ⟨rfl, hu⟩
  · exact .inl ha
  · exact .inr (.inl (by simpa [Unanswered] using hu))

theorem fetch_traced {b : Byte} (h : m.memory.Flat) (hc : m.Equipped c)
    (hf : Mode.fetch m = .ok b m') : Traced c m 1 m' := by
  cases (fetch_flat h).symm.trans hf
  exact fetched_traced h hc

theorem read_traced {b : Byte} {address : Int} (h : m.memory.Flat) (hc : m.Equipped c)
    (hr : read address m = .ok b m') : Traced c m 0 m' := by
  cases (read_flat h address).symm.trans hr
  exact asked_traced h hc address

end Machine

namespace Mode

open Machine

variable {c : IoConfig} {m m' : Machine} {n : Int} {e : Option Int}

theorem fetchWord_traced (h : m.memory.Flat) (hc : m.Equipped c) (hf : fetchWord m = .ok n m') :
    Traced c m 2 m' := by
  obtain ⟨lo, m₁, hlo, hf⟩ := bind_eq_ok.mp hf
  obtain ⟨hi, m₂, hhi, hf⟩ := bind_eq_ok.mp hf
  cases hf
  have h₁ := fetch_traced h hc hlo
  exact h₁.trans (fetch_traced h₁.flat h₁.equipped hhi)

theorem readWord_traced {lo hi : Int} (h : m.memory.Flat) (hc : m.Equipped c)
    (hr : readWord lo hi m = .ok n m') : Traced c m 0 m' := by
  obtain ⟨l, m₁, hl, hr⟩ := bind_eq_ok.mp hr
  obtain ⟨u, m₂, hu, hr⟩ := bind_eq_ok.mp hr
  cases hr
  have h₁ := read_traced h hc hl
  exact h₁.trans (read_traced h₁.flat h₁.equipped hu)

theorem zeroPageIndexed_traced {index : Register} (h : m.memory.Flat) (hc : m.Equipped c)
    (hf : zeroPageIndexed index m = .ok n m') : Traced c m 1 m' := by
  obtain ⟨b, m₁, hb, hf⟩ := bind_eq_ok.mp hf
  cases hf
  exact fetch_traced h hc hb

theorem absoluteIndexed_traced {index : Register} (h : m.memory.Flat) (hc : m.Equipped c)
    (hf : absoluteIndexed index m = .ok n m') : Traced c m 2 m' := by
  obtain ⟨w, m₁, hw, hf⟩ := bind_eq_ok.mp hf
  cases hf
  exact fetchWord_traced h hc hw

/-- Taking an operand logs its bytes, and the two bytes of a pointer unless a peripheral supplies
them. -/
theorem resolve_traced {mode : Mode} (h : m.memory.Flat) (hc : m.Equipped c)
    (hr : mode.resolve m = .ok e m') : Traced c m mode.operandLength m' := by
  cases mode with
  | implicit =>
    cases hr
    exact .refl h hc
  | relative | zeroPage =>
    obtain ⟨b, m₁, hb, hr⟩ := bind_eq_ok.mp hr
    cases hr
    exact fetch_traced h hc hb
  | immediate =>
    obtain ⟨_, _, hg, hr⟩ := bind_eq_ok.mp hr
    obtain ⟨b, m₁, hb, hr⟩ := bind_eq_ok.mp hr
    cases hr
    cases hg
    exact fetch_traced h hc hb
  | zeroPageX | zeroPageY =>
    obtain ⟨n, m₁, hn, hr⟩ := bind_eq_ok.mp hr
    cases hr
    exact zeroPageIndexed_traced h hc hn
  | absolute =>
    obtain ⟨n, m₁, hn, hr⟩ := bind_eq_ok.mp hr
    cases hr
    exact fetchWord_traced h hc hn
  | absoluteX | absoluteY =>
    obtain ⟨n, m₁, hn, hr⟩ := bind_eq_ok.mp hr
    cases hr
    exact absoluteIndexed_traced h hc hn
  | indirect =>
    obtain ⟨pointer, m₁, hp, hr⟩ := bind_eq_ok.mp hr
    obtain ⟨n, m₂, hn, hr⟩ := bind_eq_ok.mp hr
    cases hr
    have h₁ := fetchWord_traced h hc hp
    exact h₁.trans (readWord_traced h₁.flat h₁.equipped hn)
  | indexedIndirect =>
    obtain ⟨pointer, m₁, hp, hr⟩ := bind_eq_ok.mp hr
    obtain ⟨n, m₂, hn, hr⟩ := bind_eq_ok.mp hr
    cases hr
    have h₁ := zeroPageIndexed_traced h hc hp
    exact h₁.trans (readWord_traced h₁.flat h₁.equipped hn)
  | indirectIndexed =>
    obtain ⟨pointer, m₁, hp, hr⟩ := bind_eq_ok.mp hr
    obtain ⟨base, m₂, hn, hr⟩ := bind_eq_ok.mp hr
    obtain ⟨b, _, hb, hp⟩ := bind_eq_ok.mp hp
    cases hr
    cases hp
    have h₁ := fetch_traced h hc hb
    exact h₁.trans (readWord_traced h₁.flat h₁.equipped hn)

end Mode

namespace Machine

variable {c : IoConfig} {m : Machine} {s : Snapshot} {d : Decoded} {e : Int}

/-- An instruction that works on the byte at its effective address reads there; the read is logged
unless a peripheral answers it. -/
theorem readAt_execute {mnemonic : Mnemonic} {m' : Machine} (h : m.memory.Flat) (hc : m.Equipped c)
    (hreads : mnemonic.readsOperand = true) (hact : mnemonic.execute (some e) m = .ok () m')
    (address : Int) :
    m'.ReadAt address ↔ m.ReadAt address ∨ (address = word e ∧ Unanswered c e) := by
  have hused : (m.used mnemonic e).ReadAt address ↔ (m.asked e).ReadAt address := Iff.rfl
  rw [← readAt_asked hc, ← hused]
  cases hw : mnemonic.rewrites with
  | false =>
    cases (mnemonic.execute_used h hreads hw e).symm.trans hact
    rfl
  | true =>
    obtain ⟨v, hv⟩ := mnemonic.execute_rewrites h hw e
    have hflat : (m.used mnemonic e).memory.Flat := asked_flat h e
    rw [write_ok (hv.symm.trans hact) hflat]
    exact readAt_shown hflat _ _ _

/-- The log of a step tells of the read at the effective address if no peripheral answers it, or if
the address is one of the bytes of the instruction. -/
theorem step_logs (h : m.memory.Flat) (hc : m.Equipped c) (hs : outcome step m = .ok s)
    (hd : s.decoded = some d) (hreads : d.instruction.mnemonic.readsOperand = true)
    (he : d.address = some e) :
    (∃ a ∈ s.accesses, a.kind = .read ∧ a.address = e) ↔
      Unanswered c e ∨ ∃ i < s.length, e = word (m.memory.pc + (i : Nat)) := by
  obtain ⟨hr, ht⟩ := found_of_decoded h hs hd
  obtain ⟨d', m₁, m₂, hd', hdeciphers, -, hresolve, hexecute, hlog, -⟩ := step_performs h hr ht hs
  cases hd.symm.trans hd'
  have hlength : s.length = 1 + d.instruction.mode.operandLength := by
    simp [Snapshot.length, hd, hdeciphers.operand]
  have htraced : Traced c m.cleared (1 + d.instruction.mode.operandLength) m₁ := by
    have hprimed : Traced c m.cleared 1 m.primed := fetched_traced h.cleared hc
    exact hprimed.trans (Mode.resolve_traced hprimed.flat hprimed.equipped hresolve)
  obtain ⟨hlow, hhigh⟩ := hdeciphers.range e he
  have hword : e = word e := (word_of_range hlow hhigh).symm
  rw [he] at hexecute
  have hread : (∃ a ∈ s.accesses, a.kind = .read ∧ a.address = e) ↔
      m₁.ReadAt e ∨ (e = word e ∧ Unanswered c e) := by
    rw [hlog]
    exact readAt_execute htraced.flat htraced.equipped hreads hexecute e
  rw [hread, hlength]
  constructor
  · rintro (hfound | ⟨-, hu⟩)
    · rcases htraced.only e hfound with ⟨a, ha, -⟩ | hu | hpassed
      · exact absurd ha (by simp [cleared])
      · exact .inl hu
      · exact .inr hpassed
    · exact .inl hu
  · rintro (hu | ⟨i, hi, he'⟩)
    · exact .inr ⟨hword, hu⟩
    · exact .inl (he' ▸ htraced.passed i hi)

end Machine

theorem Breakpoint.hitsAfter_read {b : Breakpoint} {e : Int} {s : Snapshot}
    (hcondition : b.condition = .memoryRead) (henabled : b.enabled = true)
    (haddress : b.address = some e) (before : CpuState) :
    b.hitsAfter before s = true ↔ ∃ a ∈ s.accesses, a.kind = .read ∧ a.address = e := by
  simp [hitsAfter, hcondition, henabled, haddress, List.any_eq_true]

namespace Session

variable {c : IoConfig} {s : Session} {i : Nat} {snapshot : Snapshot} {b : Breakpoint} {d : Decoded}
  {e : Int}

/-- On an instruction that works on the byte at the address `e`, a breakpoint on reads there holds
if and only if no peripheral answers at `e` or the instruction has `e` among its own bytes. Then a
run that comes to the instruction stops right after it. -/
theorem read_breakpoint_stops (h : s.machine.memory.Flat) (hc : s.machine.Equipped c)
    (hstep : outcome Machine.step (s.machine.stepped i) = .ok snapshot)
    (hd : snapshot.decoded = some d) (hreads : d.instruction.mnemonic.readsOperand = true)
    (he : d.address = some e) (hb : b ∈ s.debugger.breakpoints)
    (hcondition : b.condition = .memoryRead) (henabled : b.enabled = true)
    (haddress : b.address = some e) :
    let m := s.machine.stepped i
    let noticed := Machine.Unanswered c e ∨
      ∃ j < snapshot.length, e = word (m.memory.pc + (j : Nat))
    ((∃ a ∈ snapshot.accesses, a.kind = .read ∧ a.address = e) ↔ noticed) ∧
      (b.hitsAfter m.state snapshot = true ↔ noticed) ∧
      (noticed → ∀ bound, s.machine.Goes i →
        (∀ j ≤ i, ¬ s.machine.Stops s.debugger.breakpoints bound j) →
        ∃ t, s.Returns bound (.breakpoint (s.machine.stepped (i + 1)).memory.pc) t ∧
          t.machine.calm = (s.machine.stepped (i + 1)).calm ∧
          t.debugger.lastHit = s.machine.hitAt s.debugger.breakpoints (i + 1) ∧
          t.debugger.lastHit.isSome = true) := by
  intro m noticed
  have hsteady := Machine.stepped_steady h i
  have hlogs := Machine.step_logs hsteady.flat (hsteady.config.trans hc) hstep hd hreads he
  have hhit := (Breakpoint.hitsAfter_read hcondition henabled haddress m.state).trans hlogs
  exact ⟨hlogs, hhit, fun hnoticed _ hgo hfree =>
    returns_after hstep hb (hhit.mpr hnoticed) hgo hfree⟩

/-- The first step of a program that loads A from the zero page. -/
theorem boots_loads {random : Random} (place : Byte) {m : Machine}
    (hm : ({} : SystemConfig).Boots random [0xA5, (place : Int), 0x00] m) :
    ∃ s d, outcome Machine.step m = .ok s ∧ s.decoded = some d ∧
      d.instruction = ⟨.lda, .zeroPage⟩ ∧ d.address = some (place : Int) ∧ s.length = 2 := by
  have hpc : m.memory.pc = 0x0600 := hm.pc
  have hplace : m.memory.cell (0x0600 + 1) = place := (hm.cell ⟨1, by simp⟩).trans (byte_val place)
  have hentry : OpcodeTable.standard.get? (byte 0xA5) = some ⟨.lda, .zeroPage⟩ := by
    decide +kernel
  have hfound := hm.found (by decide) hentry
  have hsound : m.Sound := hm.equips.sound (by decide)
  obtain ⟨s, hs⟩ := Machine.step_returns hsound hm.status hfound rfl
  obtain ⟨d, -, -, hd, hdeciphers, -⟩ := Machine.step_performs hsound.flat hm.status hfound hs
  have hoperand : d.operand = [place] := by
    rw [hdeciphers.operand, hpc, ← hplace]
    rfl
  refine ⟨s, d, hs, hd, hdeciphers.instruction, hdeciphers.direct _ ?_, ?_⟩
  · rw [hoperand]
    rfl
  · simp [Snapshot.length, hd, hoperand]

/-- A read of plain memory is noticed. -/
theorem read_breakpoint_stops_plain :
    let b : Breakpoint := { condition := .memoryRead, address := some 0x10 }
    let m := ({} : SystemConfig).boot ⟨fun _ => 7, 0⟩ [0xA5, 0x10, 0x00]
    let s : Session := ⟨m, { breakpoints := [b] }⟩
    ∃ t, s.Returns none (.breakpoint (m.stepped 1).memory.pc) t ∧
      t.debugger.lastHit.isSome = true := by
  intro b m s
  have hm : ({} : SystemConfig).Boots _ _ m := SystemConfig.boot_boots {} _ (by decide)
  clear_value m
  obtain ⟨snapshot, d, hstep, hd, hinstruction, he, -⟩ := boots_loads 0x10 hm
  have hreads : d.instruction.mnemonic.readsOperand = true := by rw [hinstruction]; rfl
  have hunanswered : Machine.Unanswered ({} : SystemConfig).io 0x10 := by
    unfold Machine.Unanswered
    decide
  have hfree : ∀ j ≤ 0, ¬ m.Stops [b] none j := by
    intro j hj
    obtain rfl : j = 0 := by omega
    exact Machine.not_stops_zero [b] (Machine.running_iff.mpr hm.status)
  obtain ⟨-, -, hstops⟩ := read_breakpoint_stops (s := s) (i := 0) (b := b) hm.equips.flat
    hm.equips.equipped hstep hd hreads he (.head _) rfl rfl rfl
  obtain ⟨t, ht, -, -, hlast⟩ := hstops (.inl hunanswered) none nofun hfree
  exact ⟨t, ht, hlast⟩

/-- The random source answers at `$FE`, and so no breakpoint notices an instruction that reads
there. -/
theorem read_breakpoint_misses :
    let b : Breakpoint := { condition := .memoryRead, address := some 0xFE }
    let m := ({} : SystemConfig).boot ⟨fun _ => 7, 0⟩ [0xA5, 0xFE, 0x00]
    ∃ snapshot d, outcome Machine.step m = .ok snapshot ∧ snapshot.decoded = some d ∧
      d.instruction.mnemonic.readsOperand = true ∧ d.address = some 0xFE ∧
      (¬ ∃ a ∈ snapshot.accesses, a.kind = .read ∧ a.address = 0xFE) ∧
      m.hitAt [b] 1 = none ∧ m.heldAt [b] 1 = none := by
  intro b m
  have hm : ({} : SystemConfig).Boots _ _ m := SystemConfig.boot_boots {} _ (by decide)
  clear_value m
  obtain ⟨snapshot, d, hstep, hd, hinstruction, he, hlength⟩ := boots_loads 0xFE hm
  have he : d.address = some 0xFE := he
  have hreads : d.instruction.mnemonic.readsOperand = true := by rw [hinstruction]; rfl
  have hpc : m.memory.pc = 0x0600 := hm.pc
  have hunlogged : ¬ ∃ a ∈ snapshot.accesses, a.kind = .read ∧ a.address = 0xFE := by
    rw [Machine.step_logs hm.equips.flat hm.equips.equipped hstep hd hreads he, hlength, hpc]
    unfold Machine.Unanswered
    decide
  have hhit : b.hitsAfter m.state snapshot = false := by
    rw [← Bool.not_eq_true, Breakpoint.hitsAfter_read rfl rfl rfl]
    exact hunlogged
  refine ⟨snapshot, d, hstep, hd, hreads, he, hunlogged, ?_, ?_⟩
  · exact (Machine.hitAt_succ (i := 0) [b] hstep).trans (by simp [hhit])
  · simp [Machine.heldAt, Breakpoint.Awaits, b]

end Session

end Micro6502
