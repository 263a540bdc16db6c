/-!
# Byte orders

A number is stored in a fixed count of bytes, the least or the most significant one first. The two
orders are each other's reversal.
-/

namespace BootConfig

/-- The order in which the bytes of a number are stored. -/
inductive ByteOrder where
  /-- The least significant byte comes first. -/
  | little
  /-- The most significant byte comes first. -/
  | big
  deriving DecidableEq, Repr

namespace ByteOrder

/-- The number stored with its least significant byte first. -/
def decodeLittle : List UInt8 → Nat
  | [] => 0
  | byte :: rest => byte.toNat + 256 * decodeLittle rest

/-- So many bytes of a number, the least significant first. -/
def encodeLittle : Nat → Nat → List UInt8
  | 0, _ => []
  | width + 1, value => UInt8.ofNat (value % 256) :: encodeLittle width (value / 256)

/-- The numbers that so many bytes store lie below this bound. -/
def bound (width : Nat) : Nat := Nat.pow 256 width

/-- The number that bytes store. -/
def decode : ByteOrder → List UInt8 → Nat
  | .little, bytes => decodeLittle bytes
  | .big, bytes => decodeLittle bytes.reverse

/-- The bytes that store a number in the given width. -/
def encode : ByteOrder → Nat → Nat → List UInt8
  | .little, width, value => encodeLittle width value
  | .big, width, value => (encodeLittle width value).reverse

/-- The name of a byte order, as it starts a sentence. -/
def name : ByteOrder → String
  | .little => "Little"
  | .big => "Big"

private theorem length_encodeLittle (width value : Nat) :
    (encodeLittle width value).length = width := by
  induction width generalizing value with
  | zero => rfl
  | succ width ih => simp [encodeLittle, ih]

/-- Either order keeps the width. -/
theorem length_encode (order : ByteOrder) (width value : Nat) :
    (order.encode width value).length = width := by
  cases order <;> simp [encode, length_encodeLittle]

example : decode .little [0x78, 0x56, 0x34, 0x12] = 0x12345678 := by decide
example : encode .big 4 0x12345678 = [0x12, 0x34, 0x56, 0x78] := by decide

end ByteOrder

end BootConfig
