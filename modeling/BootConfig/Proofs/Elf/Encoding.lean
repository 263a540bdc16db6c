import Mathlib.Logic.ExistsUnique
import BootConfig.Proofs.Checked.Run
import BootConfig.Proofs.Elf.ReadBack

/-!
# Values and the bytes of a symbol

In a symbol of one to eight bytes, the values that fit into it and the strings of as many bytes are
the same. Whether a value fits is found by shifting it, for which eight bytes are too many and not
needed: they have room for all values. No such shift is too wide, and what is stored fits.
-/

namespace BootConfig.Elf.Image

variable {image : Image} {name : String} {symbol : Symbol} {value : UInt64}

/-- The size of a symbol is refused exactly if it is zero or more than eight. -/
theorem encode_eq_unsupportedSize_iff :
    image.encode name symbol value = .error (.unsupportedSize name symbol.size) ↔
      symbol.size.toNat = 0 ∨ 8 < symbol.size.toNat := by
  simp only [encode]
  split
  · next hwidth => exact ⟨fun _ ↦ hwidth, fun _ ↦ rfl⟩
  · next hwidth =>
    constructor
    · intro h
      split at h <;> cases h
    · exact fun h ↦ absurd h hwidth

/-- A value is refused exactly if the size is not and the value does not fit into it. -/
theorem encode_eq_valueTooLarge_iff :
    image.encode name symbol value = .error (.valueTooLarge value symbol.size) ↔
      ¬(symbol.size.toNat = 0 ∨ 8 < symbol.size.toNat) ∧
        ByteOrder.bound symbol.size.toNat ≤ value.toNat := by
  simp only [encode]
  split
  · next hwidth =>
    constructor
    · intro h
      cases h
    · exact fun h ↦ absurd hwidth h.1
  · next hwidth =>
    split
    · next hlarge => exact ⟨fun _ ↦ ⟨hwidth, hlarge⟩, fun _ ↦ rfl⟩
    · next hfit =>
      constructor
      · intro h
        cases h
      · exact fun h ↦ absurd h.2 hfit

/-- Bytes are the encoding of the value that they store. -/
theorem encode_of_decode {encoded : List UInt8} (hone : 1 ≤ encoded.length)
    (height : encoded.length ≤ 8) (hlen : encoded.length = symbol.size.toNat) :
    image.encode name symbol (.ofNat (image.order.decode encoded)) = .ok encoded := by
  have hlt := image.order.decode_lt encoded
  -- Eight bytes store no more than the values that there are.
  have hword : image.order.decode encoded < UInt64.size :=
    Nat.lt_of_lt_of_le hlt (ByteOrder.bound_le_bound height)
  have hvalue : (UInt64.ofNat (image.order.decode encoded)).toNat = image.order.decode encoded :=
    UInt64.toNat_ofNat_of_lt' hword
  rw [encode_eq_ok_iff, hvalue, ← hlen]
  exact ⟨hone, height, hlt, (image.order.encode_decode encoded).symm⟩

/-- The value of an encoding is the one that its bytes store. -/
theorem decode_of_encode {encoded : List UInt8}
    (h : image.encode name symbol value = .ok encoded) :
    image.order.decode encoded = value.toNat := by
  obtain ⟨-, -, hfit, rfl⟩ := (image.encode_eq_ok_iff name symbol value encoded).mp h
  exact image.order.decode_encode hfit

private theorem encode_big_eq_reverse {other : Image} (hlittle : image.order = .little)
    (hbig : other.order = .big) :
    other.encode name symbol value = (image.encode name symbol value).map List.reverse := by
  simp only [encode, hlittle, hbig]
  split
  · rfl
  · split <;> rfl

end BootConfig.Elf.Image

namespace BootConfig.Checked

open BootConfig.Elf

/-! ### Storing a value with operations that may have no result -/

/-- A value has bits beyond a width of one to eight bytes. -/
def exceeds {ε : Type} (value : UInt64) (width : UInt32) : Run ε Bool := do
  if width < 8 then
    let bits ← mul UInt32.size width.toNat 8
    let high ← shiftRight value bits
    return high ≠ 0
  else return false

/-- The bytes that store a value in a symbol. -/
def encode (image : Image) (name : String) (symbol : Symbol) (value : UInt64) :
    Run Error (List UInt8) := do
  let width := symbol.size
  if width = 0 ∨ 8 < width then throw (.unsupportedSize name width)
  else if ← exceeds value width then throw (.valueTooLarge value width)
  else store image.order (List.replicate width.toNat 0) width.toNat value.toNat

private theorem shiftRight_ne_zero_iff {value : UInt64} {width : Nat} (h : width < 8) :
    value >>> UInt64.ofNat (width * 8) ≠ 0 ↔ ByteOrder.bound width ≤ value.toNat := by
  have hbits : (UInt64.ofNat (width * 8)).toNat = width * 8 :=
    UInt64.toNat_ofNat_of_lt' (by rw [UInt64.size]; omega)
  have hzero := ByteOrder.shiftRight_eq_zero_iff value.toNat width
  rw [← UInt64.toNat_inj.ne, UInt64.toNat_shiftRight, hbits, Nat.mod_eq_of_lt (by omega)]
  exact (not_congr hzero).trans Nat.not_lt

private theorem gives_exceeds {ε : Type} {value : UInt64} {width : UInt32} (h : width.toNat ≤ 8) :
    (exceeds value width : Run ε Bool).Gives
      (.ok (decide (ByteOrder.bound width.toNat ≤ value.toNat))) := by
  rw [exceeds]
  split
  · next hlt =>
    have hbits : width.toNat < 8 := UInt32.lt_iff_toNat_lt.mp hlt
    apply (gives_mul (by rw [UInt32.size]; omega)).bind_ok
    apply (gives_shiftRight (by omega)).bind_ok
    rw [decide_eq_decide.mpr (shiftRight_ne_zero_iff hbits)]
    exact .result _
  · next hge =>
    have hwidth : width.toNat = 8 := by
      have hle := UInt32.le_iff_toNat_le.mp (UInt32.not_lt.mp hge)
      exact Nat.le_antisymm h hle
    have hfit : value.toNat < ByteOrder.bound 8 := value.toNat_lt
    rw [hwidth, decide_eq_false (Nat.not_le.mpr hfit)]
    exact .result _

/-- A value is encoded without a fault, and what is stored has the size of the symbol. -/
theorem gives_encode (image : Image) (name : String) (symbol : Symbol) (value : UInt64) :
    (encode image name symbol value).Gives (image.encode name symbol value) := by
  have hzero : symbol.size = 0 ↔ symbol.size.toNat = 0 := UInt32.toNat_inj.symm
  have hlarge : 8 < symbol.size ↔ 8 < symbol.size.toNat := UInt32.lt_iff_toNat_lt
  simp only [encode, Image.encode, hzero, hlarge]
  split
  · exact .failure _
  · next hwidth =>
    apply (gives_exceeds (by omega)).bind_ok
    by_cases hfit : ByteOrder.bound symbol.size.toNat ≤ value.toNat
    · rw [if_pos (decide_eq_true hfit), if_pos hfit]
      exact .failure _
    · rw [decide_eq_false hfit, if_neg hfit]
      exact gives_store image.order List.length_replicate (by omega) (by omega) (by omega)

end BootConfig.Checked

namespace BootConfig.Elf

/-- Encoding is exact at every size of a symbol. A size other than one to eight is refused, then a
value that does not fit, and any other value is encoded in as many bytes, which store it in the byte
order of the image. Each string of so many bytes is the encoding of one value and no other, and the
two byte orders have each other's reversal. Nothing is shifted by too many bits or stored in too few
bytes on the way. -/
theorem encode_bijective (image : Image) (name : String) (symbol : Symbol) :
    (∀ value, image.encode name symbol value = .error (.unsupportedSize name symbol.size) ↔
      symbol.size.toNat = 0 ∨ 8 < symbol.size.toNat) ∧
    (∀ value, image.encode name symbol value = .error (.valueTooLarge value symbol.size) ↔
      ¬(symbol.size.toNat = 0 ∨ 8 < symbol.size.toNat) ∧
        ByteOrder.bound symbol.size.toNat ≤ value.toNat) ∧
    (∀ value, ¬(symbol.size.toNat = 0 ∨ 8 < symbol.size.toNat) →
      value.toNat < ByteOrder.bound symbol.size.toNat →
      ∃ encoded, image.encode name symbol value = .ok encoded ∧
        encoded.length = symbol.size.toNat ∧ image.order.decode encoded = value.toNat) ∧
    (∀ encoded : List UInt8, 1 ≤ encoded.length → encoded.length ≤ 8 →
      encoded.length = symbol.size.toNat →
      ∃! value, image.encode name symbol value = .ok encoded) ∧
    (∀ other : Image, image.order = .little → other.order = .big →
      ∀ value, other.encode name symbol value =
        (image.encode name symbol value).map List.reverse) ∧
    ∀ value, (Checked.encode image name symbol value).Gives (image.encode name symbol value) := by
  refine ⟨?_, ?_, ?_, ?_, ?_, ?_⟩
  · exact fun _ ↦ Image.encode_eq_unsupportedSize_iff
  · exact fun _ ↦ Image.encode_eq_valueTooLarge_iff
  · intro value hsize hfit
    have hencode : image.encode name symbol value =
        .ok (image.order.encode symbol.size.toNat value.toNat) :=
      (image.encode_eq_ok_iff name symbol value _).mpr ⟨by omega, by omega, hfit, rfl⟩
    exact ⟨_, hencode, Patch.length_bytes hencode, Image.decode_of_encode hencode⟩
  · intro encoded hone height hlen
    refine ⟨_, Image.encode_of_decode hone height hlen, ?_⟩
    intro value hencode
    rw [Image.decode_of_encode hencode, UInt64.ofNat_toNat]
  · exact fun _ hlittle hbig _ ↦ Image.encode_big_eq_reverse hlittle hbig
  · exact Checked.gives_encode image name symbol

/-- In the small image of either byte order, a value of 32 bits is encoded in the first symbol and is
the only one with its bytes, which stand the other way round in the other order. The next greater
value than fits is refused. -/
theorem encode_bijective_sample :
    ∃ little big, Image.parse (Layout.sample .little).write = .ok little ∧
      Image.parse (Layout.sample .big).write = .ok big ∧
      (∃ encoded, little.encode "stage_addr" ⟨0x7c00, 4, 4⟩ 0x12345678 = .ok encoded ∧
        encoded.length = 4 ∧ little.order.decode encoded = 0x12345678) ∧
      (∃! value, little.encode "stage_addr" ⟨0x7c00, 4, 4⟩ value =
        .ok [0x78, 0x56, 0x34, 0x12]) ∧
      big.encode "stage_addr" ⟨0x7c00, 4, 4⟩ 0x12345678 =
        (little.encode "stage_addr" ⟨0x7c00, 4, 4⟩ 0x12345678).map List.reverse ∧
      big.encode "stage_addr" ⟨0x7c00, 4, 4⟩ 0x100000000 =
        .error (.valueTooLarge 0x100000000 4) := by
  have hread (order : ByteOrder) : ∃ image, Image.parse (Layout.sample order).write = .ok image ∧
      image.order = order := by
    obtain ⟨image, hparse, hr⟩ := Layout.exists_parse_write (Layout.valid_sample order)
    exact ⟨image, hparse, congrArg Content.order hr.content⟩
  obtain ⟨little, hlittle, hlo⟩ := hread .little
  obtain ⟨big, hbig, hbo⟩ := hread .big
  obtain ⟨-, -, hencode, hunique, hreverse, -⟩ :=
    encode_bijective little "stage_addr" ⟨0x7c00, 4, 4⟩
  obtain ⟨-, hlarge, -⟩ := encode_bijective big "stage_addr" ⟨0x7c00, 4, 4⟩
  refine ⟨little, big, hlittle, hbig, ?_, ?_, ?_, ?_⟩
  · exact hencode 0x12345678 (by decide) (by decide)
  · exact hunique _ (by decide) (by decide) rfl
  · exact hreverse big hlo hbo _
  · exact (hlarge _).mpr (by decide)

end BootConfig.Elf
