import Micro6502.Text.Hex

namespace Micro6502.Text.Utf8

inductive Reason where
  | start | continuation | ending
  deriving DecidableEq, Repr

def Reason.text : Reason → String
  | .start => "invalid start byte"
  | .continuation => "invalid continuation byte"
  | .ending => "unexpected end of data"

structure Fault where
  position : Nat
  bytes : List UInt8
  reason : Reason
  deriving DecidableEq, Repr

def Fault.message (f : Fault) : String :=
  let place := match f.bytes with
    | [b] => s!"byte 0x{String.ofList (Hex.padded 2 b.toNat)} in position {f.position}"
    | bs => s!"bytes in position {f.position}-{f.position + bs.length - 1}"
  s!"'utf-8' codec can't decode {place}: {f.reason.text}"

def following? (b : UInt8) : Option Nat :=
  if b < 0x80 then some 0
  else if b < 0xC2 then none
  else if b < 0xE0 then some 1
  else if b < 0xF0 then some 2
  else if b < 0xF5 then some 3
  else none

def secondFits (first b : UInt8) : Bool :=
  let low := if first = 0xE0 then 0xA0 else if first = 0xF0 then 0x90 else 0x80
  let high := if first = 0xED then 0x9F else if first = 0xF4 then 0x8F else 0xBF
  low ≤ b && b ≤ high

/-- Takes the bytes that follow a first byte: the code point, or how many bytes still fitted and
what is wrong with the next. `code` and `seen` belong to the bytes already taken. -/
def takeFollowing (fits : UInt8 → Bool) : Nat → Nat → Nat → List UInt8 → Nat ⊕ (Nat × Reason)
  | 0, code, _, _ => .inl code
  | _ + 1, _, seen, [] => .inr (seen, .ending)
  | n + 1, code, seen, b :: rest =>
    if fits b then
      takeFollowing (fun b => 0x80 ≤ b && b < 0xC0) n (code * 0x40 + b.toNat % 0x40) (seen + 1) rest
    else .inr (seen, .continuation)

def leadBits (b : UInt8) (following : Nat) : Nat :=
  match following with
  | 0 => b.toNat
  | 1 => b.toNat % 0x20
  | 2 => b.toNat % 0x10
  | _ => b.toNat % 0x08

/-- Reads characters from `position` on; `fuel` bounds their number. -/
def decodeFrom : Nat → Nat → List UInt8 → Except Fault (List Char)
  | 0, _, _ => .ok []
  | _, _, [] => .ok []
  | fuel + 1, position, b :: rest =>
    match following? b with
    | none => .error ⟨position, [b], .start⟩
    | some n =>
      match takeFollowing (secondFits b) n (leadBits b n) 1 rest with
      | .inr (seen, reason) => .error ⟨position, (b :: rest).take seen, reason⟩
      | .inl code => do
        let more ← decodeFrom fuel (position + n + 1) (rest.drop n)
        .ok (Char.ofNat code :: more)

def decode (bytes : List UInt8) : Except Fault (List Char) :=
  decodeFrom bytes.length 0 bytes

/-- Reads bytes that come in piece by piece. A character that the end cuts off is a piece of its
own, and its bytes are counted from its start. -/
def decodeStream (bytes : List UInt8) : Except Fault (List Char) :=
  (decode bytes).mapError fun f => if f.reason = .ending then { f with position := 0 } else f

end Micro6502.Text.Utf8
