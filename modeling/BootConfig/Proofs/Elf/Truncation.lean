import BootConfig.Proofs.Elf.Layout
import BootConfig.Proofs.Elf.Patch

/-!
# Images that are cut off

An image of which the end is missing answers as the whole image does, or that it is truncated.
-/

namespace BootConfig.Elf

open BootConfig.Bytes (retains_append)

private theorem parse_append_same (bytes extra : ByteArray) (hmark : 4 ≤ bytes.size) :
    SameUnlessTruncated ((Image.parse bytes).map (·.withBytes (bytes ++ extra)))
      (Image.parse (bytes ++ extra)) := by
  apply Image.parse_same (retains_append (fun _ ↦ True) bytes extra) hmark
  · exact fun _ _ _ ↦ trivial
  · intro content _
    exact ⟨fun _ _ _ ↦ trivial, fun _ _ _ ↦ trivial, fun _ _ _ _ _ _ _ _ _ _ _ ↦ trivial,
      fun _ _ _ _ _ _ _ _ _ _ _ _ _ _ _ ↦ trivial⟩

private theorem ofBytes_append_same (bytes extra : ByteArray) (hmark : 4 ≤ bytes.size)
    (name : String)
    (value : UInt64) :
    SameUnlessTruncated (Patch.ofBytes bytes name value)
      (Patch.ofBytes (bytes ++ extra) name value) := by
  apply (parse_append_same bytes extra hmark).bind_of_map
  intro image hparse
  have hbytes := Image.bytes_of_parse hparse
  apply Patch.ofImage_same (P := fun _ ↦ True)
  · rw [hbytes]
    exact retains_append _ bytes extra
  · exact ⟨fun _ _ _ ↦ trivial, fun _ _ _ _ _ ↦ trivial⟩

private theorem make_append (bytes extra : ByteArray) (hmark : 4 ≤ bytes.size) (setting : Setting)
    (ht : (setting.make bytes).2 ≠ .error .truncated) :
    setting.make (bytes ++ extra) = ((setting.make bytes).1 ++ extra, (setting.make bytes).2) := by
  rw [Setting.make_snd] at ht
  have hsame := ofBytes_append_same bytes extra hmark setting.name setting.value ht
  cases hp : Patch.ofBytes bytes setting.name setting.value with
  | error e =>
    rw [hp] at hsame
    rw [Setting.make_of_error hp, Setting.make_of_error hsame]
  | ok patch =>
    rw [hp] at hsame
    rw [Setting.make_of_ok hp, Setting.make_of_ok hsame, Patch.apply, Patch.apply,
      Bytes.overwrite_append bytes extra _ _ (Patch.stop_le_size hp)]

/-- An image that is cut off answers as the whole image does, or that it is truncated: when a
symbol is set, when it is parsed, and when a symbol is found or placed in it. -/
theorem truncation_monotone (bytes extra : ByteArray) (hmark : 4 ≤ bytes.size) :
    (∀ setting : Setting, (setting.make bytes).2 ≠ .error .truncated →
      setting.make (bytes ++ extra) =
        ((setting.make bytes).1 ++ extra, (setting.make bytes).2)) ∧
    (∀ e, Image.parse bytes = .error e → e ≠ .truncated →
      Image.parse (bytes ++ extra) = .error e) ∧
    ∀ image, Image.parse bytes = .ok image →
      ∃ whole, Image.parse (bytes ++ extra) = .ok whole ∧ whole.order = image.order ∧
        whole.sections = image.sections ∧ whole.sectionNames = image.sectionNames ∧
        whole.symbols = image.symbols ∧ whole.symbolNames = image.symbolNames ∧
        (∀ name, SameUnlessTruncated (image.findSymbol name) (whole.findSymbol name)) ∧
        ∀ name symbol, SameUnlessTruncated (image.symbolOffset name symbol)
          (whole.symbolOffset name symbol) := by
  have hparse := parse_append_same bytes extra hmark
  refine ⟨make_append bytes extra hmark, ?_, ?_⟩
  · intro e he ht
    rw [he] at hparse
    exact hparse fun h ↦ ht (Except.error.inj h)
  · intro image himage
    have hkept := retains_append (fun _ ↦ True) bytes extra
    rw [← Image.bytes_of_parse himage] at hkept
    rw [himage] at hparse
    refine ⟨image.withBytes (bytes ++ extra), hparse.eq_ok rfl, rfl, rfl, rfl, rfl, rfl, ?_, ?_⟩
    · intro name
      rw [← Image.bytes_of_parse himage]
      exact Image.findSymbol_same hkept ⟨fun _ _ _ ↦ trivial, fun _ _ _ _ _ ↦ trivial⟩ name
    · intro name symbol
      rw [← Image.bytes_of_parse himage]
      exact Image.symbolOffset_same hkept.size_le name symbol

/-- With two bytes behind it, the small image is read and set as without them. -/
theorem truncation_monotone_sample :
    4 ≤ Layout.sampleBytes.size ∧
      (Layout.sampleSetting.make Layout.sampleBytes).2 ≠ .error .truncated ∧
      (Layout.sampleSetting.make (Layout.sampleBytes ++ ⟨#[0xff, 0xff]⟩)).2 =
        .ok Layout.samplePatch ∧
      ∃ image whole, Image.parse Layout.sampleBytes = .ok image ∧
        Image.parse (Layout.sampleBytes ++ ⟨#[0xff, 0xff]⟩) = .ok whole ∧
        whole.sections = image.sections := by
  have hmark : 4 ≤ Layout.sampleBytes.size := by decide +kernel
  have hset : (Layout.sampleSetting.make Layout.sampleBytes).2 = .ok Layout.samplePatch := by
    rw [Setting.make_snd, Layout.ofBytes_sample]
  have ht : (Layout.sampleSetting.make Layout.sampleBytes).2 ≠ .error .truncated := by
    rw [hset]
    exact nofun
  obtain ⟨hmake, -, hparsed⟩ := truncation_monotone Layout.sampleBytes ⟨#[0xff, 0xff]⟩ hmark
  obtain ⟨image, hparse, -⟩ := (Patch.ofBytes_eq_ok_iff _ _ _ _).mp Layout.ofBytes_sample
  obtain ⟨whole, hwhole, -, hsections, -⟩ := hparsed image hparse
  refine ⟨hmark, ht, ?_, image, whole, hparse, hwhole, hsections⟩
  rw [hmake _ ht, hset]

end BootConfig.Elf
