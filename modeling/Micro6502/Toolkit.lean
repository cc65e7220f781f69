namespace Micro6502

/-- What a window asks of a windowing toolkit: a timer, and buttons that can be enabled. -/
structure Toolkit where
  Timer : Type
  Button : Type
  newTimer : (interval : Int) → Timer
  startTimer : Timer → Timer
  stopTimer : Timer → Timer
  isActive : Timer → Bool
  newButton : (name : String) → Button
  setEnabled : Bool → Button → Button
  isEnabled : Button → Bool

namespace Toolkit

/-- How timers and buttons answer. A timer can be started whatever its interval is, a negative one
included. -/
structure Laws (T : Toolkit) : Prop where
  new_inactive : ∀ interval, T.isActive (T.newTimer interval) = false
  start_active : ∀ timer, T.isActive (T.startTimer timer) = true
  stop_inactive : ∀ timer, T.isActive (T.stopTimer timer) = false
  set_enabled : ∀ enabled button, T.isEnabled (T.setEnabled enabled button) = enabled

def plain : Toolkit where
  Timer := Bool
  Button := Bool
  newTimer _ := false
  startTimer _ := true
  stopTimer _ := false
  isActive timer := timer
  newButton _ := true
  setEnabled enabled _ := enabled
  isEnabled button := button

theorem plain_laws : plain.Laws :=
  ⟨fun _ => rfl, fun _ => rfl, fun _ => rfl, fun _ _ => rfl⟩

end Toolkit

end Micro6502
