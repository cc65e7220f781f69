import Micro6502.Fault

namespace Micro6502

variable {σ α β : Type}

/-- The state that an action leaves, whether it succeeds or fails. -/
def after (act : EStateM Fault σ α) (s : σ) : σ :=
  match act s with
  | .ok _ t => t
  | .error _ t => t

def outcome (act : EStateM Fault σ α) (s : σ) : Except Fault α :=
  match act s with
  | .ok a _ => .ok a
  | .error e _ => .error e

variable {act : EStateM Fault σ α} {f : α → EStateM Fault σ β} {s t : σ} {a : α} {e : Fault}

theorem after_ok (h : act s = .ok a t) : after act s = t := by
  simp [after, h]

theorem after_error (h : act s = .error e t) : after act s = t := by
  simp [after, h]

theorem outcome_ok (h : act s = .ok a t) : outcome act s = .ok a := by
  simp [outcome, h]

theorem outcome_error (h : act s = .error e t) : outcome act s = .error e := by
  simp [outcome, h]

/-- What an action ends with and what it leaves make up its result. -/
theorem outcome_eq_ok : outcome act s = .ok a ↔ act s = .ok a (after act s) := by
  unfold outcome after
  cases act s <;> simp

theorem outcome_eq_error : outcome act s = .error e ↔ act s = .error e (after act s) := by
  unfold outcome after
  cases act s <;> simp

/-- Values can be compared, and so the value of a closed action be computed. -/
theorem outcome_of_toOption (h : (outcome act s).toOption = some a) : outcome act s = .ok a := by
  cases ho : outcome act s with
  | ok b => simpa [ho, Except.toOption] using h
  | error e => simp [ho, Except.toOption] at h

theorem get_ok (s : σ) : (get : EStateM Fault σ σ) s = .ok s s := rfl

theorem bind_ok (h : act s = .ok a t) : (act >>= f) s = f a t := by
  simp [bind, EStateM.bind, h]

theorem bind_error (h : act s = .error e t) : (act >>= f) s = .error e t := by
  simp [bind, EStateM.bind, h]

theorem outcome_bind_ok (h : act s = .ok a t) : outcome (act >>= f) s = outcome (f a) t := by
  simp [outcome, bind_ok h]

theorem after_bind_ok (h : act s = .ok a t) : after (act >>= f) s = after (f a) t := by
  simp [after, bind_ok h]

/-- A sequence succeeds through an intermediate value and state. -/
theorem bind_eq_ok {b : β} :
    (act >>= f) s = .ok b t ↔ ∃ a u, act s = .ok a u ∧ f a u = .ok b t := by
  cases h : act s with
  | ok a u =>
    rw [bind_ok h]
    constructor
    · exact fun hf => ⟨a, u, rfl, hf⟩
    · rintro ⟨_, _, ⟨⟩, hf⟩
      exact hf
  | error e u => simp [bind_error h]

/-- A sequence leaves what its second part leaves, unless the first part fails. -/
theorem after_bind :
    after (act >>= f) s = match act s with
      | .ok a t => after (f a) t
      | .error _ t => t := by
  cases h : act s with
  | ok a u => simp [after, bind_ok h]
  | error e u => simp [after, bind_error h]

/-- What is returned does not matter for the state. -/
theorem after_discard {b : β} (act : EStateM Fault σ α) (s : σ) :
    after (act >>= fun _ => pure b) s = after act s := by
  rw [after_bind]
  unfold after
  cases act s <;> rfl

end Micro6502
