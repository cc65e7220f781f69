import Micro6502.Config.System

namespace Micro6502

/-- A sequence succeeds through an intermediate value. -/
theorem except_bind_ok {ε α β : Type} {x : Except ε α} {f : α → Except ε β} {b : β} :
    (x >>= f) = .ok b ↔ ∃ a, x = .ok a ∧ f a = .ok b := by
  cases x with
  | error e => simp [bind, Except.bind]
  | ok a => simp [bind, Except.bind]

namespace SystemConfig

/-- An accepted screen is not empty: it does not end before it starts, and it has columns. -/
theorem parseIo_screen {entries : List (Data × Data)} {c : IoConfig}
    (h : parseIo entries = .ok c) : c.screenStart ≤ c.screenEnd ∧ 0 < c.screenWidth := by
  obtain ⟨randomAddress, -, h⟩ := except_bind_ok.mp h
  obtain ⟨keypressAddress, -, h⟩ := except_bind_ok.mp h
  obtain ⟨screenStart, -, h⟩ := except_bind_ok.mp h
  obtain ⟨screenEnd, -, h⟩ := except_bind_ok.mp h
  obtain ⟨screenWidth, -, h⟩ := except_bind_ok.mp h
  dsimp only at h
  split at h
  · cases h
  · rename_i hrange
    split at h
    · cases h
    · rename_i hwidth
      cases h
      exact ⟨Int.not_lt.mp hrange, Int.not_le.mp hwidth⟩

theorem parse_screen {entries : List (Data × Data)} {base : Option String} {c : SystemConfig}
    (h : parse entries base = .ok c) :
    c.io.screenStart ≤ c.io.screenEnd ∧ 0 < c.io.screenWidth := by
  obtain ⟨opcodeTable, -, h⟩ := except_bind_ok.mp h
  obtain ⟨ioEntries, -, h⟩ := except_bind_ok.mp h
  obtain ⟨io, hio, h⟩ := except_bind_ok.mp h
  obtain ⟨displayEntries, -, h⟩ := except_bind_ok.mp h
  obtain ⟨display, -, h⟩ := except_bind_ok.mp h
  obtain ⟨origin, -, h⟩ := except_bind_ok.mp h
  obtain ⟨initialEntries, -, h⟩ := except_bind_ok.mp h
  obtain ⟨initial, -, h⟩ := except_bind_ok.mp h
  cases h
  exact parseIo_screen hio

end SystemConfig

end Micro6502
