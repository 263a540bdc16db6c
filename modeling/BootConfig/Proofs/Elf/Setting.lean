import BootConfig.Proofs.Elf.Layout
import BootConfig.Proofs.Elf.Patch

/-!
# What a run of settings does

A setting either leaves the image as it is or writes the value into the bytes of the symbol and
nothing else. This holds of each setting of a run in the image that it meets, also where the ones
before it have changed the headers and tables by which its symbol is found.
-/

namespace BootConfig.Elf

/-- A patch does what a setting asks for: it lies in the image, has the one to eight bytes of the
symbol, stores the value there in the byte order of the image, and leaves the other bytes alone. -/
structure Patch.Sets (patch : Patch) (setting : Setting) (before after : ByteArray) : Prop where
  offset_le_stop : patch.offset ≤ patch.stop
  stop_le_size : patch.stop ≤ before.size
  size_symbol : ∃ image symbol, Image.parse before = .ok image ∧
    image.findSymbol setting.name = .ok symbol ∧
    patch.stop - patch.offset = symbol.size.toNat
  one_le : 1 ≤ patch.stop - patch.offset
  le_eight : patch.stop - patch.offset ≤ 8
  stored : ∃ order written, before[5]? = some (encodingByte order) ∧
    Bytes.slice? after patch.offset (patch.stop - patch.offset) = some written ∧
    order.decode written = setting.value.toNat
  others : ∀ i, i < patch.offset ∨ patch.stop ≤ i → after[i]? = before[i]?

/-- An answer to a setting is right about the images before and after it. -/
structure Setting.Sound (setting : Setting) (before : ByteArray) (answer : Except Error Patch)
    (after : ByteArray) : Prop where
  size_eq : after.size = before.size
  unchanged : ∀ e, answer = .error e → after = before
  sets : ∀ patch, answer = .ok patch → patch.Sets setting before after

private theorem Patch.sets_of_ofBytes {setting : Setting} {bytes : ByteArray} {patch : Patch}
    (h : ofBytes bytes setting.name setting.value = .ok patch) :
    patch.Sets setting bytes (patch.apply bytes) := by
  have hin := stop_le_size h
  obtain ⟨image, hparse, hfound⟩ := (ofBytes_eq_ok_iff bytes _ _ patch).mp h
  obtain ⟨symbol, hfind, -, hencode⟩ := (ofImage_eq_ok_iff image _ _ patch).mp hfound
  have hlen := length_bytes hencode
  have hwidth : patch.stop - patch.offset = patch.bytes.length := Nat.add_sub_cancel_left ..
  obtain ⟨hone, height, hfit, hbytes⟩ := (image.encode_eq_ok_iff _ symbol _ _).mp hencode
  obtain ⟨hid, -⟩ := (Image.parse_eq_ok_iff bytes image).mp hparse
  refine ⟨Nat.le_add_right _ _, hin, ⟨image, symbol, hparse, hfind, by omega⟩, by omega, by omega,
    ⟨image.order, patch.bytes, ((Content.ofBytes_eq_ok_iff bytes _).mp hid).2.2.2, ?_, ?_⟩, ?_⟩
  · rw [hwidth]
    exact Bytes.slice?_overwrite bytes patch.offset patch.bytes hin
  · rw [hbytes]
    exact ByteOrder.decode_encode image.order hfit
  · intro i hi
    rw [getElem?_apply patch bytes i hin, if_neg (by omega)]

/-- Every setting is answered rightly in every image. -/
theorem Setting.sound_make (setting : Setting) (bytes : ByteArray) :
    setting.Sound bytes (setting.make bytes).2 (setting.make bytes).1 := by
  cases h : Patch.ofBytes bytes setting.name setting.value with
  | error e =>
    rw [make_of_error h]
    exact ⟨rfl, fun _ _ ↦ rfl, nofun⟩
  | ok patch =>
    rw [make_of_ok h]
    refine ⟨patch.size_apply bytes (Patch.stop_le_size h), nofun, ?_⟩
    intro _ hp
    cases hp
    exact Patch.sets_of_ofBytes h

/-! ### Runs -/

/-- A run makes its first setting and goes on in the image that this leaves. -/
theorem makeSettings_cons (bytes : ByteArray) (setting : Setting) (rest : List Setting) :
    makeSettings bytes (setting :: rest) =
      ((makeSettings (setting.make bytes).1 rest).1,
        (setting.make bytes).2 :: (makeSettings (setting.make bytes).1 rest).2) :=
  rfl

/-- A run has an answer for each setting. -/
theorem length_makeSettings (bytes : ByteArray) (settings : List Setting) :
    (makeSettings bytes settings).2.length = settings.length := by
  induction settings generalizing bytes with
  | nil => rfl
  | cons setting rest ih => rw [makeSettings_cons, List.length_cons, List.length_cons, ih]

private theorem make_makeSettings_take {bytes : ByteArray} {settings : List Setting} {k : Nat}
    {setting : Setting} {answer : Except Error Patch} (hs : settings[k]? = some setting)
    (ha : (makeSettings bytes settings).2[k]? = some answer) :
    setting.make (makeSettings bytes (settings.take k)).1 =
      ((makeSettings bytes (settings.take (k + 1))).1, answer) := by
  induction settings generalizing bytes k with
  | nil => cases hs
  | cons first rest ih =>
    rw [makeSettings_cons] at ha
    cases k with
    | zero =>
      cases hs
      cases ha
      rfl
    | succ k => exact ih hs ha

/-- A run keeps the number of bytes. -/
theorem size_makeSettings (bytes : ByteArray) (settings : List Setting) :
    (makeSettings bytes settings).1.size = bytes.size := by
  induction settings generalizing bytes with
  | nil => rfl
  | cons setting rest ih =>
    rw [makeSettings_cons]
    exact (ih _).trans (setting.sound_make bytes).size_eq

private theorem Setting.Sound.mem_of_ne {setting : Setting} {before after : ByteArray}
    {answer : Except Error Patch} (h : setting.Sound before answer after) {i : Nat}
    (hi : after[i]? ≠ before[i]?) :
    ∃ patch, answer = .ok patch ∧ patch.offset ≤ i ∧ i < patch.stop := by
  cases ha : answer with
  | error e => exact (hi (by rw [h.unchanged e ha])).elim
  | ok patch =>
    refine ⟨patch, rfl, ?_⟩
    by_cases hout : i < patch.offset ∨ patch.stop ≤ i
    · exact (hi ((h.sets patch ha).others i hout)).elim
    · omega

private theorem mem_of_makeSettings_ne {bytes : ByteArray} {settings : List Setting} {i : Nat}
    (hi : (makeSettings bytes settings).1[i]? ≠ bytes[i]?) :
    ∃ patch, .ok patch ∈ (makeSettings bytes settings).2 ∧ patch.offset ≤ i ∧ i < patch.stop := by
  induction settings generalizing bytes with
  | nil => exact (hi rfl).elim
  | cons setting rest ih =>
    rw [makeSettings_cons] at hi ⊢
    by_cases hnext : (setting.make bytes).1[i]? = bytes[i]?
    · rw [← hnext] at hi
      obtain ⟨patch, hmem, hin⟩ := ih hi
      exact ⟨patch, List.mem_cons_of_mem _ hmem, hin⟩
    · obtain ⟨patch, hanswer, hin⟩ := (setting.sound_make bytes).mem_of_ne hnext
      exact ⟨patch, by rw [hanswer]; exact List.mem_cons_self, hin⟩

/-- In a run over any image, every setting is made in the image that the ones before it leave and
answered rightly there. The number of bytes never changes, and only bytes in the patches with which
the run answers do. -/
theorem makeSettings_sound (bytes : ByteArray) (settings : List Setting) :
    (makeSettings bytes settings).2.length = settings.length ∧
    (∀ k setting answer, settings[k]? = some setting →
      (makeSettings bytes settings).2[k]? = some answer →
      setting.make (makeSettings bytes (settings.take k)).1 =
          ((makeSettings bytes (settings.take (k + 1))).1, answer) ∧
        setting.Sound (makeSettings bytes (settings.take k)).1 answer
          (makeSettings bytes (settings.take (k + 1))).1) ∧
    (makeSettings bytes settings).1.size = bytes.size ∧
    ∀ i, (makeSettings bytes settings).1[i]? ≠ bytes[i]? →
      ∃ patch, .ok patch ∈ (makeSettings bytes settings).2 ∧
        patch.offset ≤ i ∧ i < patch.stop := by
  refine ⟨length_makeSettings bytes settings, ?_, size_makeSettings bytes settings, ?_⟩
  · intro k setting answer hs ha
    have hmake := make_makeSettings_take hs ha
    have hsound := setting.sound_make (makeSettings bytes (settings.take k)).1
    rw [hmake] at hsound
    exact ⟨hmake, hsound⟩
  · intro i hi
    exact mem_of_makeSettings_ne hi

/-- A run over the small image stores the value at the start of its data, and the byte that it
changes there lies in its patch. -/
theorem makeSettings_sound_sample :
    Layout.samplePatch.Sets Layout.sampleSetting Layout.sampleBytes
        (makeSettings Layout.sampleBytes [Layout.sampleSetting]).1 ∧
      (makeSettings Layout.sampleBytes [Layout.sampleSetting]).1[0x40]? ≠
        Layout.sampleBytes[0x40]? ∧
      ∃ patch, .ok patch ∈ (makeSettings Layout.sampleBytes [Layout.sampleSetting]).2 ∧
        patch.offset ≤ 0x40 ∧ 0x40 < patch.stop := by
  have hrun : makeSettings Layout.sampleBytes [Layout.sampleSetting] =
      (Layout.samplePatch.apply Layout.sampleBytes, [.ok Layout.samplePatch]) := by
    rw [makeSettings_cons, Setting.make_of_ok Layout.ofBytes_sample]
    rfl
  obtain ⟨-, hsteps, -, hframe⟩ := makeSettings_sound Layout.sampleBytes [Layout.sampleSetting]
  obtain ⟨-, hsound⟩ := hsteps 0 Layout.sampleSetting (.ok Layout.samplePatch) rfl
    (by rw [hrun]; rfl)
  have hne : (makeSettings Layout.sampleBytes [Layout.sampleSetting]).1[0x40]? ≠
      Layout.sampleBytes[0x40]? := by
    have hold : Layout.sampleBytes[0x40]? = some 0xaa := by decide +kernel
    rw [hrun, hold, Patch.getElem?_apply _ _ _ (Patch.stop_le_size Layout.ofBytes_sample)]
    decide
  exact ⟨hsound.sets _ rfl, hne, hframe 0x40 hne⟩

end BootConfig.Elf
