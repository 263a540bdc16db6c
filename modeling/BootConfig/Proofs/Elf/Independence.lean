import BootConfig.Proofs.Elf.Run

/-!
# Images with the same metadata

Two images of one size whose bytes differ outside the metadata only cannot be told apart by how they
are read: they have the same sections and tables, and a symbol is found, placed, encoded and set in
one as in the other.
-/

namespace BootConfig.Elf

open BootConfig.Bytes (Retains)

namespace Image

variable {image : Image} {b : ByteArray}

private theorem findSymbol_withBytes (h : Retains image.IsMetadata image.bytes b)
    (hsize : b.size = image.bytes.size) (name : String) :
    (image.withBytes b).findSymbol name = image.findSymbol name :=
  eq_of_retains (·.findSymbol name) (fun _ _ hr hp ↦ findSymbol_same hr hp name)
    image.coversSymbols h hsize

private theorem symbolOffset_withBytes (h : Retains image.IsMetadata image.bytes b)
    (hsize : b.size = image.bytes.size) (name : String) (symbol : Symbol) :
    (image.withBytes b).symbolOffset name symbol = image.symbolOffset name symbol :=
  eq_of_retains (·.symbolOffset name symbol)
    (fun _ _ hr _ ↦ symbolOffset_same hr.size_le name symbol) image.coversSymbols h hsize

end Image

variable {image : Image} {a b : ByteArray}

private theorem Setting.make_snd_of_retains (ha : Image.parse a = .ok image)
    (h : Retains image.IsMetadata a b) (hsize : b.size = a.size) (setting : Setting) :
    (setting.make b).2 = (setting.make a).2 := by
  rw [make_snd, make_snd, Patch.ofBytes_of_retains ha h hsize]

private theorem Setting.getElem?_make_eq {setting : Setting} {patch : Patch}
    (ha : (setting.make a).2 = .ok patch) (hb : (setting.make b).2 = .ok patch) {i : Nat}
    (hlow : patch.offset ≤ i) (hhigh : i < patch.stop) :
    (setting.make b).1[i]? = (setting.make a).1[i]? := by
  have hwritten : ∃ byte, patch.byte? i = some byte := by
    apply Option.ne_none_iff_exists'.mp
    rw [ne_eq, patch.byte?_eq_none_iff]
    omega
  obtain ⟨byte, hbyte⟩ := hwritten
  rw [getElem?_make, getElem?_make, ha, hb, writtenByte?, hbyte, Option.some_or, Option.some_or]

/-- How an image is read depends on its metadata only. Bytes of the same number that are the same at
the positions of the metadata are parsed too, with the same byte order, sections and tables; in both
every symbol is found, placed and encoded alike, and every setting finds the same patch or fails for
the same cause and writes the same bytes. -/
theorem reading_depends_on_metadata (ha : Image.parse a = .ok image) (hsize : b.size = a.size)
    (hagree : ∀ i, image.IsMetadata i → b[i]? = a[i]?) :
    ∃ other, Image.parse b = .ok other ∧ other.order = image.order ∧
      other.sections = image.sections ∧ other.sectionNames = image.sectionNames ∧
      other.symbols = image.symbols ∧ other.symbolNames = image.symbolNames ∧
      (∀ name, other.findSymbol name = image.findSymbol name) ∧
      (∀ name symbol, other.symbolOffset name symbol = image.symbolOffset name symbol) ∧
      (∀ name symbol value, other.encode name symbol value = image.encode name symbol value) ∧
      ∀ setting : Setting, (setting.make b).2 = (setting.make a).2 ∧
        ∀ patch, (setting.make a).2 = .ok patch → ∀ i, patch.offset ≤ i → i < patch.stop →
          (setting.make b).1[i]? = (setting.make a).1[i]? := by
  have hretains : Retains image.IsMetadata a b :=
    ⟨Nat.le_of_eq hsize.symm, fun i hi _ ↦ hagree i hi⟩
  have hbytes := Image.bytes_of_parse ha
  have hown : Retains image.IsMetadata image.bytes b := by rwa [hbytes]
  have hsame : b.size = image.bytes.size := by rw [hbytes, hsize]
  refine ⟨image.withBytes b, Image.parse_of_retains ha hretains, rfl, rfl, rfl, rfl, rfl,
    Image.findSymbol_withBytes hown hsame, Image.symbolOffset_withBytes hown hsame,
    fun _ _ _ ↦ rfl, ?_⟩
  intro setting
  have hanswer := setting.make_snd_of_retains ha hretains hsize
  refine ⟨hanswer, ?_⟩
  intro patch hp i hlow hhigh
  exact Setting.getElem?_make_eq hp (hanswer.trans hp) hlow hhigh

/-- With another value in its data, the small image is read as before, and its first symbol is set
at the same place. -/
theorem reading_depends_on_metadata_sample :
    ∃ image, Image.parse Layout.sampleBytes = .ok image ∧
      (Layout.samplePatch.apply Layout.sampleBytes).size = Layout.sampleBytes.size ∧
      (∀ i, image.IsMetadata i →
        (Layout.samplePatch.apply Layout.sampleBytes)[i]? = Layout.sampleBytes[i]?) ∧
      (Layout.samplePatch.apply Layout.sampleBytes)[0x40]? ≠ Layout.sampleBytes[0x40]? ∧
      (∃ other, Image.parse (Layout.samplePatch.apply Layout.sampleBytes) = .ok other ∧
        other.sections = image.sections) ∧
      (Layout.sampleSetting.make (Layout.samplePatch.apply Layout.sampleBytes)).2 =
        .ok Layout.samplePatch := by
  obtain ⟨image, hparse, -⟩ := (Patch.ofBytes_eq_ok_iff _ _ _ _).mp Layout.ofBytes_sample
  have hin := Patch.stop_le_size Layout.ofBytes_sample
  have hsize := Layout.samplePatch.size_apply Layout.sampleBytes hin
  have hagree : ∀ i, image.IsMetadata i →
      (Layout.samplePatch.apply Layout.sampleBytes)[i]? = Layout.sampleBytes[i]? := by
    intro i hi
    rw [Patch.getElem?_apply _ _ i hin, if_neg]
    exact fun hw ↦ spares_sample hparse _ _ Layout.ofBytes_sample i hw.1 hw.2 hi
  have hne : (Layout.samplePatch.apply Layout.sampleBytes)[0x40]? ≠
      Layout.sampleBytes[0x40]? := by
    have hold : Layout.sampleBytes[0x40]? = some 0xaa := by decide +kernel
    rw [hold, Patch.getElem?_apply _ _ _ hin]
    decide
  obtain ⟨other, hother, -, hsections, -, -, -, -, -, -, hset⟩ :=
    reading_depends_on_metadata hparse hsize hagree
  refine ⟨image, hparse, hsize, hagree, hne, ⟨other, hother, hsections⟩, ?_⟩
  rw [(hset Layout.sampleSetting).1, Setting.make_of_ok Layout.ofBytes_sample]

end BootConfig.Elf
