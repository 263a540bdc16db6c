import BootConfig.Proofs.Elf.RoundTrip
import BootConfig.Proofs.Elf.Setting

/-!
# How far a patch reaches

A symbol is placed by the address and the offset of its section; the size of the section is not
looked at. So a patch never starts before its section, and ends in it exactly if the symbol does.
Then all that lies outside the section stays as it is. A symbol that runs over the end of its
section is set all the same, over what lies behind the section in the image.
-/

namespace BootConfig.Elf

open BootConfig.Bytes (Covers Retains)

/-- There is a byte of the section at a position of the image. -/
def Section.Holds (place : Section) (i : Nat) : Prop :=
  place.offset.toNat ≤ i ∧ i < place.offset.toNat + place.size.toNat

/-- The addresses of a symbol end where those of a section do, or before. -/
def Symbol.EndsInside (symbol : Symbol) (place : Section) : Prop :=
  symbol.value.toNat + symbol.size.toNat ≤ place.address.toNat + place.size.toNat

private theorem Image.getElem?_sections_of_sectionOf? {image : Image} {symbol : Symbol}
    {place : Section}
    (h : image.sectionOf? symbol = some place) :
    image.sections[symbol.sectionIndex.toNat]? = some place := by
  rw [sectionOf?] at h
  split at h
  · cases h
  · exact h

namespace Patch

/-- A patch lies as far behind the start of its section as its symbol does by address, and is as
long as the symbol. -/
theorem exists_section_of_ofBytes {bytes : ByteArray} {name : String} {value : UInt64}
    {patch : Patch} (h : ofBytes bytes name value = .ok patch) :
    ∃ image symbol place, Image.parse bytes = .ok image ∧ image.findSymbol name = .ok symbol ∧
      image.sections[symbol.sectionIndex.toNat]? = some place ∧
      place.address.toNat ≤ symbol.value.toNat ∧
      patch.offset = symbol.value.toNat - place.address.toNat + place.offset.toNat ∧
      patch.bytes.length = symbol.size.toNat := by
  obtain ⟨image, hparse, h⟩ := (ofBytes_eq_ok_iff bytes name value patch).mp h
  obtain ⟨symbol, hfind, hplace, hencode⟩ := (ofImage_eq_ok_iff image name value patch).mp h
  obtain ⟨place, hsection, hle, hoffset, -, -⟩ :=
    (image.symbolOffset_eq_ok_iff name symbol _).mp hplace
  exact ⟨image, symbol, place, hparse, hfind, Image.getElem?_sections_of_sectionOf? hsection, hle,
    hoffset, length_bytes hencode⟩

private theorem slice?_apply_of_forall_not_holds {patch : Patch} {place : Section}
    {bytes : ByteArray}
    (hin : patch.stop ≤ bytes.size) (hlow : place.offset.toNat ≤ patch.offset)
    (hhigh : patch.stop ≤ place.offset.toNat + place.size.toNat) {start size : Nat}
    (hfree : Covers (fun i ↦ ¬place.Holds i) start size) :
    Bytes.slice? (patch.apply bytes) start size = Bytes.slice? bytes start size := by
  have hretains : Retains (fun i ↦ ¬place.Holds i) bytes (patch.apply bytes) := by
    refine Retains.overwrite ⟨Nat.le_refl _, fun _ _ _ ↦ rfl⟩ hin ?_
    intro i hstart hstop hout
    exact hout ⟨by omega, Nat.lt_of_lt_of_le hstop hhigh⟩
  cases h : Bytes.slice? bytes start size with
  | some shown => exact hretains.slice? hfree h
  | none =>
    rw [Bytes.slice?_eq_none_iff] at h ⊢
    rwa [patch.size_apply bytes hin]

end Patch

/-- A patch never starts before the section of its symbol, and ends within the image. It ends in the
section exactly if the symbol ends there by address. If so, every window of the image without a byte
of the section, be it in another section, in the headers or in the tables of symbols and names,
shows what it did. -/
theorem patch_ends_with_symbol {setting : Setting} {before after : ByteArray} {patch : Patch}
    (h : setting.make before = (after, .ok patch)) :
    ∃ image symbol place, Image.parse before = .ok image ∧
      image.findSymbol setting.name = .ok symbol ∧
      image.sections[symbol.sectionIndex.toNat]? = some place ∧
      place.offset.toNat ≤ patch.offset ∧ patch.stop ≤ before.size ∧
      (patch.stop ≤ place.offset.toNat + place.size.toNat ↔ symbol.EndsInside place) ∧
      (symbol.EndsInside place → ∀ start size,
        (∀ i, start ≤ i → i < start + size → ¬place.Holds i) →
        Bytes.slice? after start size = Bytes.slice? before start size) := by
  have hfound : Patch.ofBytes before setting.name setting.value = .ok patch := by
    rw [← Setting.make_snd, h]
  have hafter : after = patch.apply before := by
    rw [Setting.make_of_ok hfound] at h
    exact (congrArg Prod.fst h).symm
  subst hafter
  have hin := Patch.stop_le_size hfound
  obtain ⟨image, symbol, place, hparse, hfind, hsection, hle, hoffset, hlen⟩ :=
    Patch.exists_section_of_ofBytes hfound
  have hlow : place.offset.toNat ≤ patch.offset := by omega
  have hends : patch.stop ≤ place.offset.toNat + place.size.toNat ↔ symbol.EndsInside place := by
    rw [Patch.stop, Symbol.EndsInside]
    omega
  refine ⟨image, symbol, place, hparse, hfind, hsection, hlow, hin, hends, ?_⟩
  intro hinside start size hfree
  exact Patch.slice?_apply_of_forall_not_holds hin hlow (hends.mpr hinside) hfree

/-! ### The small image -/

namespace Layout

/-- The section of the data of the small image. -/
def dataSection : Section where
  nameIndex := 0x1b
  address := 0x7c00
  offset := 0x40
  size := 8
  entrySize := 0

/-- The small image with one symbol in place of its own, which starts two bytes before the end of
the data and has four bytes. -/
def overrun : Layout :=
  { sample .big with symbols := [⟨Bytes.toList "stage_addr".toUTF8, ⟨0x7c06, 4, 4⟩⟩] }

/-- A value that starts in the last two bytes of the data of the small image. -/
def overrunPatch : Patch :=
  ⟨0x46, [0x12, 0x34, 0x56, 0x78]⟩

private theorem valid_overrun : overrun.Valid := by
  refine ⟨by decide +kernel, by decide +kernel, ?_, by decide, by decide +kernel⟩
  intro table
  cases table <;> decide +kernel

private theorem exists_parse_overrun :
    ∃ image, Image.parse overrun.write = .ok image ∧
      image.findSymbol "stage_addr" = .ok ⟨0x7c06, 4, 4⟩ ∧
      image.sections[4]? = some dataSection ∧ image.sectionNames.Holds 0x48 ∧
      image.toContent = overrun.content := by
  obtain ⟨image, hparse, hr⟩ := exists_parse_write valid_overrun
  have hstart : image.sectionNames.offset.toNat = 0x48 :=
    hr.sectionNames.offset.trans (by decide +kernel)
  have hsize : image.sectionNames.size.toNat = 0x21 :=
    hr.sectionNames.size.trans (by decide +kernel)
  refine ⟨image, hparse, ?_, ?_, ?_, hr.content⟩
  · rw [hr.findSymbol valid_overrun]
    decide +kernel
  · rw [hr.sections]
    decide +kernel
  · rw [Section.Holds]
    omega

private theorem ofBytes_overrun :
    Patch.ofBytes overrun.write sampleSetting.name sampleSetting.value = .ok overrunPatch := by
  obtain ⟨image, hparse, hfind, hsection, -, hcontent⟩ := exists_parse_overrun
  have horder : image.order = .big := congrArg Content.order hcontent
  have hsize : image.bytes.size = 333 := by
    rw [hcontent]
    decide +kernel
  rw [Patch.ofBytes_eq_ok_iff]
  refine ⟨image, hparse, ?_⟩
  rw [Patch.ofImage_eq_ok_iff]
  refine ⟨⟨0x7c06, 4, 4⟩, hfind, ?_, ?_⟩
  · rw [Image.symbolOffset_eq_ok_iff, hsize]
    exact ⟨dataSection, hsection, by decide, by decide, by decide, by decide⟩
  · rw [Image.encode_eq_ok_iff, horder]
    decide

end Layout

/-- In the small image, the first symbol ends in the data. So does the patch that sets it, and the
names of the sections, which stand behind the data, show what they did. -/
theorem patch_ends_with_symbol_sample :
    Layout.sampleSetting.make Layout.sampleBytes =
      (Layout.samplePatch.apply Layout.sampleBytes, .ok Layout.samplePatch) ∧
    Symbol.EndsInside ⟨0x7c00, 4, 4⟩ Layout.dataSection ∧
    Layout.samplePatch.stop ≤
      Layout.dataSection.offset.toNat + Layout.dataSection.size.toNat ∧
    Bytes.slice? (Layout.samplePatch.apply Layout.sampleBytes) 0x48 0x21 =
      Bytes.slice? Layout.sampleBytes 0x48 0x21 := by
  have hmake := Setting.make_of_ok Layout.ofBytes_sample
  have hinside : Symbol.EndsInside ⟨0x7c00, 4, 4⟩ Layout.dataSection := by
    rw [Symbol.EndsInside]
    decide
  obtain ⟨image, symbol, place, hparse, hfind, hsection, -, -, hends, hframe⟩ :=
    patch_ends_with_symbol hmake
  obtain ⟨read, hread, hr⟩ := Layout.exists_parse_write (Layout.valid_sample .big)
  rw [Layout.sampleBytes] at hparse
  cases hparse.symm.trans hread
  have hlookup : (Layout.sample .big).lookup "stage_addr" = .ok ⟨0x7c00, 4, 4⟩ := by
    decide +kernel
  rw [hr.findSymbol (Layout.valid_sample .big)] at hfind
  cases hfind.symm.trans hlookup
  have hdata : image.sections[4]? = some Layout.dataSection := by
    rw [hr.sections]
    decide +kernel
  cases hsection.symm.trans hdata
  refine ⟨hmake, hinside, hends.mpr hinside, hframe hinside _ _ ?_⟩
  intro i hlow _ hholds
  exact absurd hholds.2 (Nat.not_lt_of_le hlow)

/-- A patch need not end in the section of its symbol: that for a symbol which runs over the end of
the data ends behind the data, and overwrites the names of the sections there. -/
theorem patch_ends_behind_section :
    (∃ image, Image.parse Layout.overrun.write = .ok image ∧
      image.findSymbol Layout.sampleSetting.name = .ok ⟨0x7c06, 4, 4⟩ ∧
      image.sections[4]? = some Layout.dataSection ∧ image.sectionNames.Holds 0x48) ∧
    (Layout.sampleSetting.make Layout.overrun.write).2 = .ok Layout.overrunPatch ∧
    ¬(Layout.dataSection.offset.toNat ≤ Layout.overrunPatch.offset ∧
      Layout.overrunPatch.stop ≤
        Layout.dataSection.offset.toNat + Layout.dataSection.size.toNat) ∧
    (Layout.sampleSetting.make Layout.overrun.write).1[0x48]? ≠
      Layout.overrun.write[0x48]? := by
  obtain ⟨image, hparse, hfind, hsection, hnames, -⟩ := Layout.exists_parse_overrun
  have hold : Layout.overrun.write[0x48]? = some 0 := by decide +kernel
  refine ⟨⟨image, hparse, hfind, hsection, hnames⟩, ?_, by decide, ?_⟩
  · rw [Setting.make_snd, Layout.ofBytes_overrun]
  · rw [Setting.make_of_ok Layout.ofBytes_overrun, hold,
      Patch.getElem?_apply _ _ _ (Patch.stop_le_size Layout.ofBytes_overrun)]
    decide

end BootConfig.Elf
