import BootConfig.Proofs.Bytes.Order
import BootConfig.Proofs.Elf.Lookup

/-!
# What a patch is and does

A patch is found exactly if its symbol is found, placed and able to store the value. It lies in the
image, and all bytes that are not its own stay as they are.
-/

namespace BootConfig.Elf

open BootConfig.Bytes (Retains Covers)

/-- A value is encoded exactly if the symbol has one to eight bytes and the value fits into them. -/
theorem Image.encode_eq_ok_iff (image : Image) (name : String) (symbol : Symbol) (value : UInt64)
    (encoded : List UInt8) :
    image.encode name symbol value = .ok encoded ↔
      1 ≤ symbol.size.toNat ∧ symbol.size.toNat ≤ 8 ∧
        value.toNat < ByteOrder.bound symbol.size.toNat ∧
        encoded = image.order.encode symbol.size.toNat value.toNat := by
  simp only [encode]
  split
  · next hwidth =>
    simp
    omega
  · next hwidth =>
    split
    · next hlarge => simp [Nat.not_lt.mpr hlarge]
    · next hfit =>
      simp only [Except.ok.injEq]
      constructor
      · intro h
        exact ⟨by omega, by omega, by omega, h.symm⟩
      · rintro ⟨-, -, -, h⟩
        exact h.symm

namespace Patch

/-- A patch is found in an image exactly if its symbol is found, placed, and stores the value. -/
theorem ofImage_eq_ok_iff (image : Image) (name : String) (value : UInt64) (patch : Patch) :
    ofImage image name value = .ok patch ↔
      ∃ symbol, image.findSymbol name = .ok symbol ∧
        image.symbolOffset name symbol = .ok patch.offset ∧
        image.encode name symbol value = .ok patch.bytes := by
  constructor
  · intro h
    obtain ⟨symbol, hfind, h⟩ := bind_eq_ok_iff.mp h
    obtain ⟨offset, hplace, h⟩ := bind_eq_ok_iff.mp h
    obtain ⟨encoded, hencode, h⟩ := bind_eq_ok_iff.mp h
    cases h
    exact ⟨symbol, hfind, hplace, hencode⟩
  · rintro ⟨symbol, hfind, hplace, hencode⟩
    apply bind_eq_ok_iff.mpr ⟨symbol, hfind, _⟩
    apply bind_eq_ok_iff.mpr ⟨patch.offset, hplace, _⟩
    apply bind_eq_ok_iff.mpr ⟨patch.bytes, hencode, _⟩
    rfl

/-- A patch is found in bytes exactly if it is in the image that they are. -/
theorem ofBytes_eq_ok_iff (bytes : ByteArray) (name : String) (value : UInt64) (patch : Patch) :
    ofBytes bytes name value = .ok patch ↔
      ∃ image, Image.parse bytes = .ok image ∧ ofImage image name value = .ok patch :=
  bind_eq_ok_iff

/-- A patch depends on what its symbol is found by, and on the number of bytes. -/
theorem ofImage_same {P : Nat → Prop} {image : Image} {bytes : ByteArray}
    (h : Retains P image.bytes bytes) (hp : image.CoversSymbols P) (name : String)
    (value : UInt64) :
    SameUnlessTruncated (ofImage image name value)
      (ofImage (image.withBytes bytes) name value) := by
  apply (Image.findSymbol_same h hp name).bind
  intro symbol _
  apply (Image.symbolOffset_same h.size_le name symbol).bind
  intro offset _
  exact .refl _

/-- The bytes of a patch are as many as the symbol has. -/
theorem length_bytes {image : Image} {name : String} {symbol : Symbol} {value : UInt64}
    {encoded : List UInt8} (h : image.encode name symbol value = .ok encoded) :
    encoded.length = symbol.size.toNat := by
  obtain ⟨-, -, -, rfl⟩ := (image.encode_eq_ok_iff name symbol value encoded).mp h
  exact ByteOrder.length_encode _ _ _

/-- A patch lies in the image for which it is found. -/
theorem stop_le_size {bytes : ByteArray} {name : String} {value : UInt64} {patch : Patch}
    (h : ofBytes bytes name value = .ok patch) : patch.stop ≤ bytes.size := by
  obtain ⟨image, hparse, h⟩ := (ofBytes_eq_ok_iff bytes name value patch).mp h
  obtain ⟨symbol, -, hplace, hencode⟩ := (ofImage_eq_ok_iff image name value patch).mp h
  obtain ⟨place, -, -, -, -, hin⟩ := (image.symbolOffset_eq_ok_iff name symbol _).mp hplace
  rw [stop, length_bytes hencode, ← Image.bytes_of_parse hparse]
  exact hin

/-- A patch is found at a 32-bit offset. -/
theorem offset_lt {bytes : ByteArray} {name : String} {value : UInt64} {patch : Patch}
    (h : ofBytes bytes name value = .ok patch) : patch.offset < UInt32.size := by
  obtain ⟨image, -, h⟩ := (ofBytes_eq_ok_iff bytes name value patch).mp h
  obtain ⟨symbol, -, hplace, -⟩ := (ofImage_eq_ok_iff image name value patch).mp h
  obtain ⟨place, -, -, -, hrange, -⟩ := (image.symbolOffset_eq_ok_iff name symbol _).mp hplace
  exact hrange

variable (patch : Patch) (bytes : ByteArray)

/-- A patch that lies in an image keeps the number of its bytes. -/
theorem size_apply (h : patch.stop ≤ bytes.size) : (patch.apply bytes).size = bytes.size :=
  Bytes.size_overwrite bytes patch.offset patch.bytes h

/-- A patch writes its bytes and leaves all others alone. -/
theorem getElem?_apply (i : Nat) (h : patch.stop ≤ bytes.size) :
    (patch.apply bytes)[i]? =
      if patch.offset ≤ i ∧ i < patch.stop then patch.bytes[i - patch.offset]? else bytes[i]? :=
  Bytes.getElem?_overwrite bytes patch.offset patch.bytes i h

end Patch

namespace Setting

variable {setting : Setting} {bytes : ByteArray}

/-- A setting for which no patch is found changes nothing. -/
theorem make_of_error {e : Error}
    (h : Patch.ofBytes bytes setting.name setting.value = .error e) :
    setting.make bytes = (bytes, .error e) := by
  rw [make, h]

/-- A setting for which a patch is found applies it. -/
theorem make_of_ok {patch : Patch}
    (h : Patch.ofBytes bytes setting.name setting.value = .ok patch) :
    setting.make bytes = (patch.apply bytes, .ok patch) := by
  rw [make, h]

/-- A setting answers with the patch that is found for it. -/
theorem make_snd (setting : Setting) (bytes : ByteArray) :
    (setting.make bytes).2 = Patch.ofBytes bytes setting.name setting.value := by
  rw [make]
  cases Patch.ofBytes bytes setting.name setting.value <;> rfl

end Setting

end BootConfig.Elf
