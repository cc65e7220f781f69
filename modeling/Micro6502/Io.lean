import Micro6502.Screen

namespace Micro6502

structure IoConfig where
  randomAddress : Int := 0xFE
  keypressAddress : Int := 0xFF
  screenStart : Int := 0x0200
  screenEnd : Int := 0x05FF
  screenWidth : Int := 32
  deriving DecidableEq, Repr

/-- The number of full rows in the screen's range. -/
def IoConfig.screenHeight (c : IoConfig) : Int :=
  (c.screenEnd - c.screenStart + 1).fdiv c.screenWidth

structure Random where
  supply : Nat → Byte
  taken : Nat := 0

namespace Random

def next (r : Random) : Byte × Random := (r.supply r.taken, { r with taken := r.taken + 1 })

def scramble (w : UInt64) : UInt64 :=
  let w := (w ^^^ (w >>> 30)) * 0xBF58476D1CE4E5B9
  let w := (w ^^^ (w >>> 27)) * 0x94D049BB133111EB
  w ^^^ (w >>> 31)

/-- A sequence that looks random; every seed has its own. -/
def ofSeed (seed : Int) : Random where
  supply i := (scramble (UInt64.ofInt seed + 0x9E3779B97F4A7C15 * (UInt64.ofNat i + 1))).toUInt8

/-- The given numbers as bytes, over and over; zeros if there are none. -/
def cycle (values : Array Int) : Random where
  supply i := byte (values.getD (i % values.size) 0)

end Random

/-- Records pixel updates instead of showing them; its key may be any integer. -/
structure Recorder where
  key : Int
  updates : Array (Int × Int × Int) := #[]
  deriving DecidableEq, Repr

inductive Console where
  | screen (screen : Screen)
  | recorder (recorder : Recorder)
  deriving DecidableEq, Repr

namespace Console

def update (x y color : Int) : Console → Console
  | screen s => screen (s.update x y color)
  | recorder r => recorder { r with updates := r.updates.push (x, y, color) }

def screen? : Console → Option Screen
  | screen s => some s
  | recorder _ => none

def key : Console → Int
  | screen s => s.latch
  | recorder r => r.key

def press (key : Int) : Console → Console
  | screen s => screen (s.press key)
  | recorder r => recorder { r with key := key }

end Console

/-- The peripherals of a machine. A pixel update that `watches` accepts, by column, row and colour,
raises the request to stop, which a debugger obeys. -/
structure Io where
  config : IoConfig := {}
  console : Console
  random : Random
  watches : Int → Int → Int → Bool := fun _ _ _ => false
  stopRequested : Bool := false

namespace Io

def supply (io : Io) (address : Int) : Option (Byte × Io) :=
  if address = io.config.randomAddress then
    let (b, random) := io.random.next
    some (b, { io with random })
  else if address = io.config.keypressAddress then some (byte io.console.key, io)
  else none

/-- Shows a value stored at the address. The column is the address modulo the width; the row counts
widths from the start of the range. -/
def plot (address value : Int) : EStateM Fault Io Unit := fun io =>
  let c := io.config
  if c.screenStart ≤ address ∧ address ≤ c.screenEnd then
    if c.screenWidth = 0 then .error .zeroWidth io
    else
      let x := address.fmod c.screenWidth
      let y := (address - c.screenStart).fdiv c.screenWidth
      .ok () { io with
        console := io.console.update x y (value % 16)
        stopRequested := io.stopRequested || io.watches x y (value % 16) }
  else .ok () io

end Io

end Micro6502
