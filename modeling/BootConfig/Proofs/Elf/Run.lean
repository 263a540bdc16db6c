import BootConfig.Proofs.Elf.Metadata
import BootConfig.Proofs.Elf.Setting

/-!
# Runs that spare the metadata

Where no setting of a run writes into the metadata of the image, each one is answered as if it came
first, although every one reads the image anew. The image that the run leaves follows from these
answers alone: a byte is the one written last.
-/

namespace BootConfig.Elf

open BootConfig.Bytes (Retains)

/-- The byte that a patch writes at a position, if it lies there. -/
def Patch.byte? (patch : Patch) (i : Nat) : Option UInt8 :=
  if patch.offset ≤ i then patch.bytes[i - patch.offset]? else none

/-- The byte that an answer writes at a position; a failure writes none. -/
def writtenByte? : Except Error Patch → Nat → Option UInt8
  | .ok patch, i => patch.byte? i
  | .error _, _ => none

/-- The byte that the last patch among answers writes at a position, if one lies there. -/
def lastByte? (answers : List (Except Error Patch)) (i : Nat) : Option UInt8 :=
  answers.reverse.findSome? fun answer ↦ writtenByte? answer i

/-- The answers to settings if each were made in the same image. -/
def answersIn (bytes : ByteArray) (settings : List Setting) : List (Except Error Patch) :=
  settings.map fun setting ↦ Patch.ofBytes bytes setting.name setting.value

/-- A setting spares positions if the patch that it finds has none of them. -/
def Setting.Spares (setting : Setting) (bytes : ByteArray) (P : Nat → Prop) : Prop :=
  ∀ patch, Patch.ofBytes bytes setting.name setting.value = .ok patch →
    ∀ i, patch.offset ≤ i → i < patch.stop → ¬ P i

/-! ### The byte written last -/

private theorem lastByte?_append (answers later : List (Except Error Patch)) (i : Nat) :
    lastByte? (answers ++ later) i = (lastByte? later i).or (lastByte? answers i) := by
  rw [lastByte?, List.reverse_append, List.findSome?_append]
  rfl

private theorem lastByte?_cons (answer : Except Error Patch) (later : List (Except Error Patch))
    (i : Nat) :
    lastByte? (answer :: later) i = (lastByte? later i).or (writtenByte? answer i) := by
  rw [lastByte?, List.reverse_cons, List.findSome?_append]
  congr 1
  rw [List.findSome?_cons]
  cases writtenByte? answer i <;> rfl

/-- A patch writes a byte exactly at the positions where it lies. -/
theorem Patch.byte?_eq_none_iff (patch : Patch) (i : Nat) :
    patch.byte? i = none ↔ i < patch.offset ∨ patch.stop ≤ i := by
  rw [byte?, stop]
  split
  · rw [List.getElem?_eq_none_iff]
    omega
  · simp
    omega

/-- After a setting, a byte is the one that it wrote, or that from before. -/
theorem Setting.getElem?_make (setting : Setting) (bytes : ByteArray) (i : Nat) :
    (setting.make bytes).1[i]? = (writtenByte? (setting.make bytes).2 i).or bytes[i]? := by
  cases h : Patch.ofBytes bytes setting.name setting.value with
  | error e =>
    rw [make_of_error h]
    rfl
  | ok patch =>
    rw [make_of_ok h, writtenByte?, patch.getElem?_apply bytes i (Patch.stop_le_size h)]
    split
    · next hin =>
      have hlt : i - patch.offset < patch.bytes.length := by
        have hstop := hin.2
        rw [Patch.stop] at hstop
        omega
      rw [Patch.byte?, if_pos hin.1, List.getElem?_eq_getElem hlt]
      rfl
    · next hout =>
      rw [(patch.byte?_eq_none_iff i).mpr (by omega)]
      rfl

private theorem getElem?_makeSettings (bytes : ByteArray) (settings : List Setting) (i : Nat) :
    (makeSettings bytes settings).1[i]? =
      (lastByte? (makeSettings bytes settings).2 i).or bytes[i]? := by
  induction settings generalizing bytes with
  | nil => rfl
  | cons setting rest ih =>
    rw [makeSettings_cons]
    dsimp only
    rw [ih, setting.getElem?_make bytes i, lastByte?_cons, Option.or_assoc]

/-! ### Runs -/

section

variable {image : Image} {bytes : ByteArray} {settings : List Setting}

private theorem Setting.retains_make {a b : ByteArray} (ha : Image.parse a = .ok image)
    (h : Retains image.IsMetadata a b) (hsize : b.size = a.size) {setting : Setting}
    (hfree : setting.Spares a image.IsMetadata) :
    Retains image.IsMetadata a (setting.make b).1 := by
  cases hp : Patch.ofBytes b setting.name setting.value with
  | error e =>
    rw [make_of_error hp]
    exact h
  | ok patch =>
    rw [make_of_ok hp]
    rw [Patch.ofBytes_of_retains ha h hsize] at hp
    apply h.overwrite
    · rw [hsize]
      exact Patch.stop_le_size hp
    · exact hfree patch hp

private theorem answers_of_retains {a b : ByteArray} (ha : Image.parse a = .ok image)
    (h : Retains image.IsMetadata a b) (hsize : b.size = a.size)
    (hfree : ∀ setting ∈ settings, setting.Spares a image.IsMetadata) :
    (makeSettings b settings).2 = answersIn a settings := by
  induction settings generalizing b with
  | nil => rfl
  | cons setting rest ih =>
    have hkept := Setting.retains_make ha h hsize (hfree setting List.mem_cons_self)
    have hnext := (setting.sound_make b).size_eq
    rw [makeSettings_cons, answersIn, List.map_cons, Setting.make_snd,
      Patch.ofBytes_of_retains ha h hsize]
    exact congrArg _ (ih hkept (by omega) fun s hs ↦ hfree s (List.mem_cons_of_mem _ hs))

private theorem answers_of_spares (hparse : Image.parse bytes = .ok image)
    (hfree : ∀ setting ∈ settings, setting.Spares bytes image.IsMetadata) :
    (makeSettings bytes settings).2 = answersIn bytes settings :=
  answers_of_retains hparse ⟨Nat.le_refl _, fun _ _ _ ↦ rfl⟩ rfl hfree

private theorem final_eq_of_lastByte? {others : List Setting}
    (hparse : Image.parse bytes = .ok image)
    (hfree : ∀ setting ∈ settings, setting.Spares bytes image.IsMetadata)
    (hothers : ∀ setting ∈ others, setting.Spares bytes image.IsMetadata)
    (h : ∀ i, lastByte? (answersIn bytes others) i = lastByte? (answersIn bytes settings) i) :
    (makeSettings bytes others).1 = (makeSettings bytes settings).1 := by
  apply Bytes.ext_getElem?
  intro i
  rw [getElem?_makeSettings, getElem?_makeSettings, answers_of_spares hparse hfree,
    answers_of_spares hparse hothers, h]

private theorem Patch.same_place {name : String} {value last : UInt64} {patch later : Patch}
    (h : ofBytes bytes name value = .ok patch) (hl : ofBytes bytes name last = .ok later) :
    patch.offset = later.offset ∧ patch.stop = later.stop := by
  obtain ⟨image, hparse, h⟩ := (ofBytes_eq_ok_iff _ _ _ _).mp h
  obtain ⟨image', hparse', hl⟩ := (ofBytes_eq_ok_iff _ _ _ _).mp hl
  cases hparse.symm.trans hparse'
  obtain ⟨symbol, hfind, hplace, hencode⟩ := (ofImage_eq_ok_iff _ _ _ _).mp h
  obtain ⟨symbol', hfind', hplace', hencode'⟩ := (ofImage_eq_ok_iff _ _ _ _).mp hl
  cases hfind.symm.trans hfind'
  have hoffset := Except.ok.inj (hplace.symm.trans hplace')
  refine ⟨hoffset, ?_⟩
  rw [stop, stop, hoffset, length_bytes hencode, length_bytes hencode']

private theorem writtenByte?_or_same_name {name : String} {value last : UInt64} {later : Patch}
    (hl : Patch.ofBytes bytes name last = .ok later) (i : Nat) :
    (later.byte? i).or (writtenByte? (Patch.ofBytes bytes name value) i) = later.byte? i := by
  cases h : Patch.ofBytes bytes name value with
  | error e => rw [writtenByte?, Option.or_none]
  | ok patch =>
    obtain ⟨hoffset, hstop⟩ := Patch.same_place h hl
    cases hb : later.byte? i with
    | some byte => rfl
    | none =>
      rw [Patch.byte?_eq_none_iff, ← hoffset, ← hstop] at hb
      rw [writtenByte?, (patch.byte?_eq_none_iff i).mpr hb]
      rfl

private theorem writtenByte?_or_comm {answer other : Except Error Patch}
    (h : ∀ patch later, answer = .ok patch → other = .ok later →
      patch.stop ≤ later.offset ∨ later.stop ≤ patch.offset) (i : Nat) :
    (writtenByte? other i).or (writtenByte? answer i) =
      (writtenByte? answer i).or (writtenByte? other i) := by
  cases answer with
  | error e => simp [writtenByte?]
  | ok patch =>
    cases other with
    | error e => simp [writtenByte?]
    | ok later =>
      have hapart := h patch later rfl rfl
      simp only [writtenByte?]
      by_cases hin : i < later.offset ∨ later.stop ≤ i
      · rw [(later.byte?_eq_none_iff i).mpr hin, Option.or_none, Option.none_or]
      · rw [(patch.byte?_eq_none_iff i).mpr (by omega), Option.or_none, Option.none_or]

/-- If no setting of a run writes into the metadata of the image with which the run begins, then
each is answered as if it came first, and in the end every byte is the one written last, or that
from before. So a run that is repeated changes nothing more, of two values for a symbol the last one
stays, and settings with nothing in common can be exchanged. -/
theorem makeSettings_of_spares (hparse : Image.parse bytes = .ok image) (settings : List Setting)
    (hfree : ∀ setting ∈ settings, setting.Spares bytes image.IsMetadata) :
    (makeSettings bytes settings).2 = answersIn bytes settings ∧
    (∀ i, (makeSettings bytes settings).1[i]? =
      (lastByte? (answersIn bytes settings) i).or bytes[i]?) ∧
    (makeSettings bytes (settings ++ settings)).1 = (makeSettings bytes settings).1 ∧
    (∀ front name value last back patch,
      settings = front ++ ⟨name, value⟩ :: ⟨name, last⟩ :: back →
      Patch.ofBytes bytes name last = .ok patch →
      (makeSettings bytes (front ++ ⟨name, last⟩ :: back)).1 = (makeSettings bytes settings).1) ∧
    ∀ front first second back, settings = front ++ first :: second :: back →
      (∀ patch later, Patch.ofBytes bytes first.name first.value = .ok patch →
        Patch.ofBytes bytes second.name second.value = .ok later →
        patch.stop ≤ later.offset ∨ later.stop ≤ patch.offset) →
      (makeSettings bytes (front ++ second :: first :: back)).1 =
        (makeSettings bytes settings).1 := by
  have hanswers := answers_of_spares hparse hfree
  refine ⟨hanswers, ?_, ?_, ?_, ?_⟩
  · intro i
    rw [getElem?_makeSettings, hanswers]
  · apply final_eq_of_lastByte? hparse hfree
    · intro setting hs
      exact hfree setting ((List.mem_append.mp hs).elim id id)
    · intro i
      rw [answersIn, List.map_append, lastByte?_append, Option.or_self]
      rfl
  · rintro front name value last back patch rfl hl
    apply final_eq_of_lastByte? hparse hfree
    · intro setting hs
      apply hfree
      simp only [List.mem_append, List.mem_cons] at hs ⊢
      rcases hs with h | h | h <;> simp [h]
    · intro i
      simp only [answersIn, List.map_append, List.map_cons, lastByte?_append, lastByte?_cons, hl,
        Option.or_assoc]
      congr 1
      rw [writtenByte?, ← Option.or_assoc, writtenByte?_or_same_name hl]
  · rintro front first second back rfl hapart
    apply final_eq_of_lastByte? hparse hfree
    · intro setting hs
      apply hfree
      simp only [List.mem_append, List.mem_cons] at hs ⊢
      rcases hs with h | h | h | h <;> simp [h]
    · intro i
      simp only [answersIn, List.map_append, List.map_cons, lastByte?_append, lastByte?_cons,
        Option.or_assoc]
      congr 1
      rw [← Option.or_assoc, ← Option.or_assoc, writtenByte?_or_comm hapart]

end

/-- The data of the small image lies apart from its metadata. -/
theorem spares_sample {image : Image} (hparse : Image.parse Layout.sampleBytes = .ok image)
    (value : UInt64) :
    (Setting.mk "stage_addr" value).Spares Layout.sampleBytes image.IsMetadata := by
  have hfields : (Image.parse Layout.sampleBytes).toOption.all (fun image ↦
      image.word 32 = .ok 204 ∧ image.sectionNames.offset = 72 ∧
        image.symbolNames.offset = 105 ∧ image.symbols.offset = 140) = true := by
    decide +kernel
  rw [hparse] at hfields
  simp only [Except.toOption, Option.all_some, decide_eq_true_eq] at hfields
  obtain ⟨hstart, hnames, hsymbolNames, hsymbols⟩ := hfields
  intro patch hp i hlow hhigh hmeta
  obtain ⟨hoffset, hstop⟩ := Patch.same_place Layout.ofBytes_sample hp
  rw [← hoffset] at hlow
  rw [← hstop] at hhigh
  simp only [Layout.samplePatch, Patch.stop, List.length_cons, List.length_nil] at hlow hhigh
  cases hmeta with
  | identification h => omega
  | headersStart _ h => omega
  | headersShape _ h => omega
  | sectionHeader n h _ _ _ h' _ =>
    cases hstart.symm.trans h
    simp at h'
    omega
  | sectionNames h _ =>
    rw [hnames] at h
    simp at h
    omega
  | symbolNames h _ =>
    rw [hsymbolNames] at h
    simp at h
    omega
  | symbolEntry n _ h _ =>
    rw [hsymbols] at h
    simp at h
    omega

/-- In the small image the second of two values for a symbol stays. -/
theorem makeSettings_of_spares_sample :
    ∃ image, Image.parse Layout.sampleBytes = .ok image ∧
      (∀ setting ∈ [⟨"stage_addr", 1⟩, Layout.sampleSetting],
        setting.Spares Layout.sampleBytes image.IsMetadata) ∧
      (makeSettings Layout.sampleBytes [Layout.sampleSetting]).1 =
        (makeSettings Layout.sampleBytes [⟨"stage_addr", 1⟩, Layout.sampleSetting]).1 := by
  obtain ⟨image, hparse, -⟩ := (Patch.ofBytes_eq_ok_iff _ _ _ _).mp Layout.ofBytes_sample
  have hfree : ∀ setting ∈ [⟨"stage_addr", 1⟩, Layout.sampleSetting],
      setting.Spares Layout.sampleBytes image.IsMetadata := by
    intro setting hs
    simp only [List.mem_cons, List.not_mem_nil, or_false] at hs
    rcases hs with rfl | rfl
    · exact spares_sample hparse 1
    · exact spares_sample hparse 0x12345678
  obtain ⟨-, -, -, hlast, -⟩ := makeSettings_of_spares hparse _ hfree
  exact ⟨image, hparse, hfree,
    hlast [] "stage_addr" 1 0x12345678 [] _ rfl Layout.ofBytes_sample⟩

end BootConfig.Elf
