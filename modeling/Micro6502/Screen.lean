import Micro6502.Fault

namespace Micro6502

abbrev Color := Fin 16

def palette : Vector String 16 := #v[
  "#000000", "#ffffff", "#880000", "#aaffee", "#cc44cc", "#00cc55", "#0000aa", "#eeee77",
  "#dd8855", "#664400", "#ff7777", "#333333", "#777777", "#aaff66", "#0088ff", "#bbbbbb"]

structure Pixel where
  color : Color := 0
  touched : Bool := false
  deriving DecidableEq, Repr

/-- Row after row of pixels. A size that is not positive gives an empty grid. -/
structure Screen where
  width : Int
  height : Int
  rows : Array (Array Pixel)
  latch : Byte := 0
  deriving DecidableEq, Repr

/-- Counts from the end where the index is negative. -/
def fromEitherEnd {α : Type} (xs : Array α) (i : Int) : Except Fault α :=
  let i := if i < 0 then i + xs.size else i
  if i < 0 then .error .noElement
  else match xs[i.toNat]? with
    | some x => .ok x
    | none => .error .noElement

namespace Screen

def blank (width height : Int) : Screen where
  width := width
  height := height
  rows := Array.replicate height.toNat (Array.replicate width.toNat {})

def colorOf (n : Int) : Color := Fin.ofNat 16 (n % 16).toNat

/-- Paints one pixel and marks it as touched; a place outside the grid is ignored. -/
def update (s : Screen) (x y color : Int) : Screen :=
  if 0 ≤ x ∧ x < s.width ∧ 0 ≤ y ∧ y < s.height then
    { s with rows := s.rows.modify y.toNat fun row =>
      row.modify x.toNat fun _ => ⟨colorOf color, true⟩ }
  else s

def clear (s : Screen) (color : Int) : Screen :=
  (List.range s.height.toNat).foldl (fun s (y : Nat) =>
    (List.range s.width.toNat).foldl (fun s (x : Nat) => s.update x y color) s) s

def press (s : Screen) (key : Int) : Screen := { s with latch := byte key }

def pixel (s : Screen) (x y : Int) : Except Fault Color := do
  let row ← fromEitherEnd s.rows y
  return (← fromEitherEnd row x).color

def paint (s : Screen) (x y : Int) : Except Fault String := do
  return palette.get (← s.pixel x y)

def colors (s : Screen) : List (List Color) :=
  s.rows.toList.map fun row => row.toList.map (·.color)

/-- The touched places as column and row, in the order of columns. -/
def touched (s : Screen) : List (Nat × Nat) :=
  (List.range s.width.toNat).flatMap fun x =>
    (List.range s.height.toNat).filterMap fun y =>
      if (s.rows[y]?.bind (·[x]?)).any (·.touched) then some (x, y) else none

def untouched (s : Screen) : Screen :=
  { s with rows := s.rows.map fun row => row.map fun p => { p with touched := false } }

def render (s : Screen) : String :=
  "\n".intercalate <| s.colors.map fun row =>
    String.ofList <| row.map fun c => if c = 0 then '.' else '#'

end Screen

end Micro6502
