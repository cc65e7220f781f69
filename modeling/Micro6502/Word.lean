namespace Micro6502

abbrev Byte := UInt8

instance byteToInt : Coe UInt8 Int where
  coe b := (b.toNat : Int)

/-- The byte that an integer denotes: its remainder by 256. -/
def byte (n : Int) : Byte := UInt8.ofInt n

/-- A byte is denoted by its own number. -/
@[simp] theorem byte_val (b : Byte) : byte (b : Int) = b := by
  apply UInt8.toNat_inj.mp
  have := b.toNat_lt
  simp only [byte, UInt8.ofInt, UInt8.toNat_ofNat']
  omega

theorem val_byte (n : Int) : ((byte n : Byte) : Int) = n % 0x100 := by
  simp only [byte, UInt8.ofInt, UInt8.toNat_ofNat']
  omega

def byteValues (bs : List Byte) : List Int := bs.map fun (b : Byte) => (b : Int)

/-- The 16-bit word that an integer denotes: its remainder by 65536. -/
def word (n : Int) : Int := n % 0x10000

theorem word_nonneg (n : Int) : 0 ≤ word n := by
  unfold word
  omega

theorem word_le (n : Int) : word n ≤ 0xFFFF := by
  unfold word
  omega

def wordOf (lo hi : Int) : Int := hi % 0x100 * 0x100 + lo % 0x100

def wordBytes (w : Int) : Int × Int := (w % 0x100, w / 0x100 % 0x100)

/-- The two bytes of a word make it up again. -/
theorem wordOf_bytes (w : Int) :
    wordOf (byte (wordBytes w).1 : Byte) (byte (wordBytes w).2 : Byte) = word w := by
  rw [val_byte, val_byte]
  simp only [wordOf, wordBytes, word]
  omega

/-- A byte in two's complement, from -128 to 127. -/
def signedOffset (n : Int) : Int :=
  let b := n % 0x100
  if 0x80 ≤ b then b - 0x100 else b

end Micro6502
