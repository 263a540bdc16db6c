import BootConfig.Proofs.Elf.Patch

/-!
# The metadata of an image

The positions by which the sections of an image are read and its symbols found. Bytes of the same
number that are the same there have the same sections, tables, symbols and patches.
-/

namespace BootConfig.Elf

open BootConfig.Bytes (Retains Covers)

namespace Image

/-- A position that decides how an image is read: one of the identification, of the fields of the
header that are in use, of a section header, of a table of names, or of the entry of a symbol. -/
inductive IsMetadata (image : Image) (i : Nat) : Prop where
  | identification (h : i < 6)
  | headersStart (hlow : 32 ≤ i) (hhigh : i < 36)
  | headersShape (hlow : 46 ≤ i) (hhigh : i < 52)
  | sectionHeader {start : UInt32} {stride count : UInt16} (n : Nat)
      (hstart : image.word 32 = .ok start) (hstride : image.half 46 = .ok stride)
      (hcount : image.half 48 = .ok count) (hn : n < count.toNat)
      (hlow : start.toNat + n * stride.toNat ≤ i)
      (hhigh : i < start.toNat + n * stride.toNat + 40)
  | sectionNames (hlow : image.sectionNames.offset.toNat ≤ i)
      (hhigh : i < image.sectionNames.offset.toNat + image.sectionNames.size.toNat)
  | symbolNames (hlow : image.symbolNames.offset.toNat ≤ i)
      (hhigh : i < image.symbolNames.offset.toNat + image.symbolNames.size.toNat)
  | symbolEntry (n : Nat) (hn : n < image.symbolCount)
      (hlow : image.symbols.offset.toNat + n * image.symbols.entrySize.toNat ≤ i)
      (hhigh : i < image.symbols.offset.toNat + n * image.symbols.entrySize.toNat + 16)

variable {image : Image} {a b : ByteArray}

private theorem coversSections (h : ofContent image.toContent = .ok image) :
    image.toContent.CoversSections image.IsMetadata where
  start := fun _ hlow hhigh ↦ .headersStart hlow hhigh
  fields := fun _ hlow hhigh ↦ .headersShape hlow hhigh
  headers := fun _ _ _ hstart hstride hcount n hn _ hlow hhigh ↦
    .sectionHeader n hstart hstride hcount hn hlow hhigh
  names := by
    intro start stride count index sections table hstart hstride hcount hindex hsections htable
    obtain ⟨-, start', stride', count', index', hstart', hstride', hcount', hindex', hsections',
      htable', -⟩ := (ofContent_eq_ok_iff image.toContent image).mp h
    -- The header was read once, so both readings have the same fields.
    cases hstart.symm.trans hstart'
    cases hstride.symm.trans hstride'
    cases hcount.symm.trans hcount'
    cases hindex.symm.trans hindex'
    cases hsections.symm.trans hsections'
    cases htable.symm.trans htable'
    exact fun _ hlow hhigh ↦ .sectionNames hlow hhigh

/-- The symbols of an image are found by its metadata. -/
theorem coversSymbols (image : Image) : image.CoversSymbols image.IsMetadata where
  names := fun _ hlow hhigh ↦ .symbolNames hlow hhigh
  entries := fun n hn _ hlow hhigh ↦ .symbolEntry n hn hlow hhigh

/-- Bytes that retain the metadata of an image are parsed as the image is. -/
theorem parse_of_retains (ha : parse a = .ok image) (h : Retains image.IsMetadata a b) :
    parse b = .ok (image.withBytes b) := by
  obtain ⟨hid, hcontent⟩ := (parse_eq_ok_iff a image).mp ha
  have hmark : 4 ≤ a.size := by
    have hbyte := ((Content.ofBytes_eq_ok_iff a image.toContent).mp hid).2.2.1
    exact Nat.le_of_lt (Bytes.lt_size_of_getElem? hbyte)
  have hsame := parse_same h hmark (fun i _ hi ↦ .identification (by omega)) (by
    intro content hc
    cases hc.symm.trans hid
    exact coversSections hcontent)
  rw [ha] at hsame
  exact hsame.eq_ok rfl

end Image

variable {image : Image} {a b : ByteArray}

/-- A question whose answer depends on what symbols are found by has the same answer with any bytes
of the same number that retain that. It is asked with either bytes: neither answer is a truncation
unless the other is. -/
theorem Image.eq_of_retains {α : Type} {P : Nat → Prop} (question : Image → Except Error α)
    (hq : ∀ (image : Image) (bytes : ByteArray), Retains P image.bytes bytes →
      image.CoversSymbols P →
      SameUnlessTruncated (question image) (question (image.withBytes bytes)))
    (hp : image.CoversSymbols P) (h : Retains P image.bytes b) (hsize : b.size = image.bytes.size) :
    question (image.withBytes b) = question image := by
  have hforth := hq image b h hp
  have hback := hq (image.withBytes b) image.bytes (h.symm hsize) ⟨hp.names, hp.entries⟩
  exact hforth.eq_of_symm hback

/-- Bytes of the same number that retain the metadata of an image have the same patches. -/
theorem Patch.ofBytes_of_retains (ha : Image.parse a = .ok image)
    (h : Retains image.IsMetadata a b) (hsize : b.size = a.size) (name : String)
    (value : UInt64) : ofBytes b name value = ofBytes a name value := by
  have hparse := Image.parse_of_retains ha h
  rw [← Image.bytes_of_parse ha] at h hsize
  rw [ofBytes, ofBytes, hparse, ha]
  exact Image.eq_of_retains (ofImage · name value) (fun _ _ hr hp ↦ ofImage_same hr hp name value)
    image.coversSymbols h hsize

end BootConfig.Elf
