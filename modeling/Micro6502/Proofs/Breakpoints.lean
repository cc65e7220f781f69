import Mathlib.Data.List.Count
import Mathlib.Data.List.Infix
import Mathlib.Data.List.Nodup
import Micro6502.Proofs.Stopping

namespace Micro6502

namespace Debugger

inductive Edit where
  | add (b : Breakpoint)
  | update (old new : Breakpoint)
  | remove (b : Breakpoint)
  deriving DecidableEq, Repr

def edit (d : Debugger) : Edit → Debugger
  | .add b => d.add b
  | .update old new => d.update old new
  | .remove b => d.remove b

def editAll (d : Debugger) (edits : List Edit) : Debugger := edits.foldl edit d

/-- The edit puts a listed breakpoint in the place of another one. -/
def Doubles (d : Debugger) : Edit → Prop
  | .update old new => old ∈ d.breakpoints ∧ new ∈ d.breakpoints ∧ new ≠ old
  | _ => False

variable {d : Debugger}

theorem nodup_add (h : d.breakpoints.Nodup) (b : Breakpoint) : (d.add b).breakpoints.Nodup := by
  unfold add
  split
  · exact h
  · rename_i hb
    have hnew : b ∉ d.breakpoints := by simpa using hb
    have hconcat := (List.nodup_concat d.breakpoints b).mpr ⟨hnew, h⟩
    rwa [List.concat_eq_append] at hconcat

theorem nodup_update (h : d.breakpoints.Nodup) (old new : Breakpoint) :
    (d.update old new).breakpoints.Nodup ↔ ¬ d.Doubles (.update old new) := by
  by_cases hold : old ∈ d.breakpoints
  · have hcount (b : Breakpoint) : (d.update old new).breakpoints.count b =
        d.breakpoints.count b + (if new = b then 1 else 0) - if old = b then 1 else 0 := by
      simp [update, List.count_replace, hold]
    rw [List.nodup_iff_count_le_one] at h ⊢
    constructor
    · rintro hle ⟨-, hnew, hne⟩
      have hpos := List.count_pos_iff.mpr hnew
      have htwice := hle new
      rw [hcount, if_pos rfl, if_neg hne.symm] at htwice
      omega
    · intro hdoubles b
      have hle := h b
      rw [hcount]
      by_cases hnew : new = b
      · subst hnew
        by_cases hsame : old = new
        · rw [if_pos rfl, if_pos hsame]
          omega
        · have habsent : d.breakpoints.count new = 0 :=
            List.count_eq_zero.mpr fun hnew => hdoubles ⟨hold, hnew, Ne.symm hsame⟩
          rw [if_pos rfl, if_neg hsame]
          omega
      · rw [if_neg hnew]
        omega
  · simpa [update, List.replace_of_not_mem hold, Doubles, hold] using h

/-- What is listed once at most stays so, unless an edit doubles it. -/
theorem nodup_edit (h : d.breakpoints.Nodup) (e : Edit) :
    (d.edit e).breakpoints.Nodup ↔ ¬ d.Doubles e := by
  cases e with
  | add b => exact ⟨fun _ => id, fun _ => nodup_add h b⟩
  | update old new => exact nodup_update h old new
  | remove b => exact ⟨fun _ => id, fun _ => h.erase b⟩

theorem editAll_concat (d : Debugger) (edits : List Edit) (e : Edit) :
    d.editAll (edits ++ [e]) = (d.editAll edits).edit e := by
  rw [editAll, List.foldl_append]
  rfl

/-- All the way along the edits nothing is listed twice, if and only if none of them doubles. -/
theorem nodup_editAll (h : d.breakpoints.Nodup) (edits : List Edit) :
    (∀ p, p <+: edits → (d.editAll p).breakpoints.Nodup) ↔
      ∀ p e, p ++ [e] <+: edits → ¬ (d.editAll p).Doubles e := by
  constructor
  · intro hnodup p e hp
    have hbefore := hnodup p ((List.prefix_append p [e]).trans hp)
    rw [← nodup_edit hbefore, ← editAll_concat]
    exact hnodup _ hp
  · intro hdoubles p hp
    induction p using List.reverseRecOn with
    | nil => exact h
    | append_singleton p e ih =>
      have hbefore := ih ((List.prefix_append p [e]).trans hp)
      rw [editAll_concat, nodup_edit hbefore]
      exact hdoubles p e hp

/-- Once removed, a breakpoint is listed only if it was listed twice. -/
theorem mem_remove_self (d : Debugger) (b : Breakpoint) :
    b ∈ (d.remove b).breakpoints ↔ 1 < d.breakpoints.count b := by
  rw [remove, ← List.count_pos_iff, List.count_erase_self]
  omega

end Debugger

namespace Machine

variable {m : Machine} {bs : List Breakpoint} {i : Nat} {b : Breakpoint}

theorem mem_of_hitAt (h : m.hitAt bs i = some b) : b ∈ bs := by
  cases i with
  | zero => cases h
  | succ i =>
    simp only [hitAt] at h
    split at h
    · exact List.mem_of_find?_eq_some h
    · cases h

theorem mem_of_heldAt (h : m.heldAt bs i = some b) : b ∈ bs := by
  cases i with
  | zero => cases h
  | succ i => exact List.mem_of_find?_eq_some h

/-- Only a listed breakpoint ends a run. -/
theorem mem_of_ending? {bound : Option Int} {reason : StopReason}
    (h : m.ending? bs bound i = some (reason, some b)) : b ∈ bs := by
  unfold ending? at h
  cases hhit : m.hitAt bs i with
  | some b' =>
    simp only [hhit] at h
    cases h
    exact mem_of_hitAt hhit
  | none =>
    simp only [hhit] at h
    split_ifs at h
    · cases h
    · cases h
    · cases h
    · obtain ⟨b', hheld, he⟩ := Option.map_eq_some_iff.mp h
      cases he
      exact mem_of_heldAt hheld

end Machine

namespace Session

/-- A run forgets what ended the last one, which may be listed no more. -/
theorem lastHit_run (limit : Nat) (s : Session) :
    ∀ b ∈ (after (run limit) s).debugger.lastHit, b ∈ s.debugger.breakpoints := by
  intro b hb
  obtain ⟨k, t, -, ht, -, ⟨reason, hit, hend, hrun⟩ | ⟨-, e, machine, -, hrun⟩⟩ := run_ends limit s
  · rw [after_ok hrun] at hb
    cases hb
    exact Machine.mem_of_ending? hend
  · rw [after_error hrun, Option.mem_def, ht.lastHit] at hb
    cases hb

end Session

namespace Debugger

/-- However the breakpoints of a new debugger are edited: at no time is one listed twice, if and only if
no edit puts a listed one in the place of another. One that is listed once at most is gone when it has
been removed, and ends no run; one that is listed twice is still there. -/
theorem edited_once (limit : Option Nat) (edits : List Edit) :
    let d : Debugger := { historyLimit := limit }
    let t := d.editAll edits
    ((∀ p, p <+: edits → (d.editAll p).breakpoints.Nodup) ↔
      ∀ p e, p ++ [e] <+: edits → ¬ (d.editAll p).Doubles e) ∧
    ∀ b, (t.breakpoints.count b ≤ 1 →
        b ∉ (t.remove b).breakpoints ∧
        ∀ m limit, (after (Session.run limit) ⟨m, t.remove b⟩).debugger.lastHit ≠ some b) ∧
      (1 < t.breakpoints.count b → b ∈ (t.remove b).breakpoints) := by
  intro d t
  refine ⟨nodup_editAll List.nodup_nil edits, fun b => ⟨fun hcount => ?_, (mem_remove_self t b).mpr⟩⟩
  have hgone : b ∉ (t.remove b).breakpoints := by
    rw [mem_remove_self]
    omega
  exact ⟨hgone, fun m limit hhit => hgone (Session.lastHit_run limit ⟨m, t.remove b⟩ b hhit)⟩

/-- One breakpoint is moved to where another one is, and removed: the other one still ends a run. -/
theorem edited_twice :
    let stop (pc : Int) : Breakpoint := { condition := .pcMatch, value := some pc }
    let d := ({} : Debugger).editAll
      [.add (stop 0x0601), .add (stop 0x0602), .update (stop 0x0601) (stop 0x0602)]
    let program : Ram := ⟨#[0xEA, 0xEA, 0xEA, 0x00]⟩
    let m : Machine := { memory := { bus := { mappings := [⟨0x0600, 0x0603, .ram program⟩] } } }
    ¬ d.breakpoints.Nodup ∧ stop 0x0602 ∈ (d.remove (stop 0x0602)).breakpoints ∧
      (after (Session.run 9) ⟨m, d.remove (stop 0x0602)⟩).debugger.lastHit = some (stop 0x0602) := by
  intro stop d program m
  decide +kernel

end Debugger

end Micro6502
