import BootConfig.Proofs.Elf.Fields
import BootConfig.Proofs.Elf.Search

/-!
# Which bytes are an image

The bytes alone tell how parsing ends. There is one cause of refusal for each of its checks, and
each of them is given only if the checks before it pass, so no two of them apply to the same bytes.
-/

namespace BootConfig.Elf

/-! ### Identification -/

/-- How the check of the identification ends. -/
inductive Identifies (bytes : ByteArray) : Except Error Content → Prop where
  | notElf (hmark : ¬magic <+: Bytes.toList bytes) : Identifies bytes (.error .notElf)
  | noClass (hmark : magic <+: Bytes.toList bytes) (hclass : bytes[4]? = none) :
      Identifies bytes (.error .truncated)
  | otherClass {number : UInt8} (hmark : magic <+: Bytes.toList bytes)
      (hclass : bytes[4]? = some number) (hother : number ≠ class32) :
      Identifies bytes (.error (.unsupportedClass number))
  | noEncoding (hmark : magic <+: Bytes.toList bytes) (hclass : bytes[4]? = some class32)
      (hencoding : bytes[5]? = none) :
      Identifies bytes (.error .truncated)
  | otherEncoding {number : UInt8} (hmark : magic <+: Bytes.toList bytes)
      (hclass : bytes[4]? = some class32) (hencoding : bytes[5]? = some number)
      (hlittle : number ≠ 1) (hbig : number ≠ 2) :
      Identifies bytes (.error (.unsupportedEncoding number))
  | identified {order : ByteOrder} (hmark : magic <+: Bytes.toList bytes)
      (hclass : bytes[4]? = some class32) (hencoding : bytes[5]? = some (encodingByte order)) :
      Identifies bytes (.ok ⟨bytes, order⟩)

namespace Content

variable {bytes : ByteArray} {content : Content}

private theorem slice?_magic :
    Bytes.slice? bytes 0 magic.length = some magic ↔ magic <+: Bytes.toList bytes := by
  rw [Bytes.slice?_eq, List.prefix_iff_eq_take, List.drop_zero, Nat.zero_add]
  constructor
  · intro h
    split at h
    · exact (Option.some.inj h).symm
    · cases h
  · intro h
    have hlength := congrArg List.length h
    rw [List.length_take, Bytes.length_toList] at hlength
    rw [if_pos (by omega), ← h]

private theorem exists_encodingByte_or (number : UInt8) :
    (∃ order, number = encodingByte order) ∨ number ≠ 1 ∧ number ≠ 2 := by
  by_cases hlittle : number = 1
  · exact .inl ⟨.little, hlittle⟩
  · by_cases hbig : number = 2
    · exact .inl ⟨.big, hbig⟩
    · exact .inr ⟨hlittle, hbig⟩

private theorem ofBytes_of_identifies {answer : Except Error Content}
    (h : Identifies bytes answer) :
    ofBytes bytes = answer := by
  rw [ofBytes]
  cases h with
  | notElf hmark => rw [if_neg (mt slice?_magic.mp hmark)]
  | noClass hmark hclass => rw [if_pos (slice?_magic.mpr hmark), hclass]
  | otherClass hmark hclass hother =>
    rw [if_pos (slice?_magic.mpr hmark), hclass]
    exact if_neg hother
  | noEncoding hmark hclass hencoding =>
    rw [if_pos (slice?_magic.mpr hmark), hclass, hencoding]
    rfl
  | @otherEncoding number hmark hclass hencoding hlittle hbig =>
    rw [if_pos (slice?_magic.mpr hmark), hclass, hencoding]
    change (orderOf number).map _ = _
    rw [orderOf, if_neg hlittle, if_neg hbig]
    rfl
  | @identified order hmark hclass hencoding =>
    rw [if_pos (slice?_magic.mpr hmark), hclass, hencoding]
    change (orderOf (encodingByte order)).map _ = _
    rw [(orderOf_eq_ok_iff _ _).mpr rfl]
    rfl

private theorem exists_identifies (bytes : ByteArray) : ∃ answer, Identifies bytes answer := by
  by_cases hmark : magic <+: Bytes.toList bytes
  · cases hclass : bytes[4]? with
    | none => exact ⟨_, .noClass hmark hclass⟩
    | some number =>
      by_cases heq : number = class32
      · subst heq
        cases hencoding : bytes[5]? with
        | none => exact ⟨_, .noEncoding hmark hclass hencoding⟩
        | some encoding =>
          rcases exists_encodingByte_or encoding with ⟨order, rfl⟩ | ⟨hlittle, hbig⟩
          · exact ⟨_, .identified hmark hclass hencoding⟩
          · exact ⟨_, .otherEncoding hmark hclass hencoding hlittle hbig⟩
      · exact ⟨_, .otherClass hmark hclass heq⟩
  · exact ⟨_, .notElf hmark⟩

/-- The check of the identification ends exactly as the first six bytes say. -/
theorem ofBytes_eq_iff {answer : Except Error Content} :
    ofBytes bytes = answer ↔ Identifies bytes answer := by
  constructor
  · rintro rfl
    obtain ⟨answer, h⟩ := exists_identifies bytes
    rwa [ofBytes_of_identifies h]
  · exact ofBytes_of_identifies

/-! ### Headers -/

/-- Where the fields of the header start that are in use, and how many bytes they have: the offset
of the section headers, their distance, their number, and the index of the section of names. -/
def headerFields : List (Nat × Nat) := [(32, 4), (46, 2), (48, 2), (50, 2)]

/-- The number of section headers that the header announces. -/
def headerCount (content : Content) : Nat :=
  (content.halfAt 48).toNat

/-- Where the section header of a number starts. -/
def headerOffset (content : Content) (n : Nat) : Nat :=
  (content.wordAt 32).toNat + n * (content.halfAt 46).toNat

/-- The index of the section that holds the names of sections. -/
def namesIndex (content : Content) : Nat :=
  (content.halfAt 50).toNat

/-- The sections that the section headers describe. -/
def headers (content : Content) : List Section :=
  (List.range content.headerCount).map fun n ↦ content.headerAt (content.headerOffset n)

/-- The fields in use of the header and of each section header lie in the image. -/
structure HoldsHeaders (content : Content) : Prop where
  fields : ∀ field ∈ headerFields, field.1 + field.2 ≤ content.bytes.size
  headers : ∀ n, n < content.headerCount → content.HoldsHeader (content.headerOffset n)

variable {content : Content}

private theorem fields_iff :
    (∀ field ∈ headerFields, field.1 + field.2 ≤ content.bytes.size) ↔
      52 ≤ content.bytes.size := by
  simp only [headerFields, List.forall_mem_cons, List.not_mem_nil, false_implies, implies_true,
    and_true]
  omega

private theorem HoldsHeaders.sections_eq (h : content.HoldsHeaders) :
    content.sections (content.wordAt 32).toNat (content.halfAt 46).toNat content.headerCount =
      .ok content.headers :=
  sections_of_holdsHeader h.headers

end Content

/-! ### Images -/

/-- How reading the sections of an image and finding its tables ends. -/
inductive Reads (content : Content) : Except Error Image → Prop where
  | truncated (h : ¬content.HoldsHeaders) : Reads content (.error .truncated)
  | noSectionNames (h : content.HoldsHeaders)
      (hindex : content.headerCount ≤ content.namesIndex) :
      Reads content (.error (.missingSection .sectionNames))
  | noSymbols {names : Section} {e : Error} (h : content.HoldsHeaders)
      (hnames : content.headers[content.namesIndex]? = some names)
      (hsymbols : Finds content.bytes names content.headers .symbols (.error e)) :
      Reads content (.error e)
  | noSymbolNames {names symbols : Section} {e : Error} (h : content.HoldsHeaders)
      (hnames : content.headers[content.namesIndex]? = some names)
      (hsymbols : Finds content.bytes names content.headers .symbols (.ok symbols))
      (hsymbolNames : Finds content.bytes names content.headers .symbolNames (.error e)) :
      Reads content (.error e)
  | read {names symbols symbolNames : Section} (h : content.HoldsHeaders)
      (hnames : content.headers[content.namesIndex]? = some names)
      (hsymbols : Finds content.bytes names content.headers .symbols (.ok symbols))
      (hsymbolNames : Finds content.bytes names content.headers .symbolNames (.ok symbolNames)) :
      Reads content (.ok ⟨content, content.headers, names, symbols, symbolNames⟩)

/-- How parsing bytes ends. -/
inductive Parses (bytes : ByteArray) : Except Error Image → Prop where
  | unidentified {e : Error} (h : Identifies bytes (.error e)) : Parses bytes (.error e)
  | identified {content : Content} {answer : Except Error Image}
      (h : Identifies bytes (.ok content)) (hreads : Reads content answer) : Parses bytes answer

namespace Image

variable {bytes : ByteArray} {content : Content}

private theorem ofContent_eq (content : Content) :
    ofContent content =
      if 52 ≤ content.bytes.size then
        content.sections (content.wordAt 32).toNat (content.halfAt 46).toNat content.headerCount >>=
          fun sections ↦
            sections[content.namesIndex]?.elim (.error (.missingSection .sectionNames))
              fun sectionNames ↦
                content.findSection sectionNames .symbols sections >>= fun symbols ↦
                  content.findSection sectionNames .symbolNames sections >>= fun symbolNames ↦
                    .ok ⟨content, sections, sectionNames, symbols, symbolNames⟩
      else .error .truncated := by
  simp only [ofContent, Content.word_eq, Content.half_eq, ite_bind_eq]
  split_ifs
  · refine congrArg _ (funext fun sections ↦ ?_)
    rw [Content.namesIndex]
    cases sections[(content.halfAt 50).toNat]? <;> rfl
  all_goals first | rfl | omega

private theorem ofContent_of_not_holdsHeaders (h : ¬content.HoldsHeaders) :
    ofContent content = .error .truncated := by
  rw [ofContent_eq]
  split
  next hin =>
    have hheaders : ¬∀ n, n < content.headerCount → content.HoldsHeader (content.headerOffset n) :=
      fun hheaders ↦ h ⟨Content.fields_iff.mpr hin, hheaders⟩
    obtain ⟨n, hn⟩ := Classical.not_forall.mp hheaders
    obtain ⟨hlt, hout⟩ := Classical.not_imp.mp hn
    rw [Content.sections_of_not_holdsHeader hlt hout]
    rfl
  next => rfl

private theorem ofContent_of_le (h : content.HoldsHeaders)
    (hindex : content.headerCount ≤ content.namesIndex) :
    ofContent content = .error (.missingSection .sectionNames) := by
  have hnone : content.headers[content.namesIndex]? = none := by
    simpa [Content.headers] using hindex
  rw [ofContent_eq, if_pos (Content.fields_iff.mp h.fields), h.sections_eq]
  change content.headers[content.namesIndex]?.elim _ _ = _
  rw [hnone, Option.elim_none]

private theorem ofContent_of_getElem? {names : Section} (h : content.HoldsHeaders)
    (hnames : content.headers[content.namesIndex]? = some names) :
    ofContent content =
      content.findSection names .symbols content.headers >>= fun symbols ↦
        content.findSection names .symbolNames content.headers >>= fun symbolNames ↦
          .ok ⟨content, content.headers, names, symbols, symbolNames⟩ := by
  rw [ofContent_eq, if_pos (Content.fields_iff.mp h.fields), h.sections_eq]
  change content.headers[content.namesIndex]?.elim _ _ = _
  rw [hnames, Option.elim_some]

private theorem ofContent_of_reads {answer : Except Error Image} (h : Reads content answer) :
    ofContent content = answer := by
  cases h with
  | truncated h => exact ofContent_of_not_holdsHeaders h
  | noSectionNames h hindex => exact ofContent_of_le h hindex
  | noSymbols h hnames hsymbols =>
    rw [ofContent_of_getElem? h hnames, Content.findSection_eq_iff.mpr hsymbols]
    rfl
  | noSymbolNames h hnames hsymbols hsymbolNames =>
    rw [ofContent_of_getElem? h hnames, Content.findSection_eq_iff.mpr hsymbols,
      Content.findSection_eq_iff.mpr hsymbolNames]
    rfl
  | read h hnames hsymbols hsymbolNames =>
    rw [ofContent_of_getElem? h hnames, Content.findSection_eq_iff.mpr hsymbols,
      Content.findSection_eq_iff.mpr hsymbolNames]
    rfl

private theorem exists_reads (content : Content) : ∃ answer, Reads content answer := by
  by_cases h : content.HoldsHeaders
  · cases hnames : content.headers[content.namesIndex]? with
    | none => exact ⟨_, .noSectionNames h (by simpa [Content.headers] using hnames)⟩
    | some names =>
      cases hsymbols : content.findSection names .symbols content.headers with
      | error e => exact ⟨_, .noSymbols h hnames (Content.findSection_eq_iff.mp hsymbols)⟩
      | ok symbols =>
        have hfinds := Content.findSection_eq_iff.mp hsymbols
        cases hsymbolNames : content.findSection names .symbolNames content.headers with
        | error e =>
          exact ⟨_, .noSymbolNames h hnames hfinds (Content.findSection_eq_iff.mp hsymbolNames)⟩
        | ok symbolNames =>
          exact ⟨_, .read h hnames hfinds (Content.findSection_eq_iff.mp hsymbolNames)⟩
  · exact ⟨_, .truncated h⟩

/-- Parsing bytes ends exactly as they say: with the cause of the first check that does not pass, or
with the image of their sections and tables if all of them pass. -/
theorem parse_eq_iff_parses (bytes : ByteArray) (answer : Except Error Image) :
    parse bytes = answer ↔ Parses bytes answer := by
  constructor
  · rintro rfl
    rw [parse]
    cases hid : Content.ofBytes bytes with
    | error e => exact .unidentified (Content.ofBytes_eq_iff.mp hid)
    | ok content =>
      obtain ⟨answer, h⟩ := exists_reads content
      change Parses bytes (ofContent content)
      rw [ofContent_of_reads h]
      exact .identified (Content.ofBytes_eq_iff.mp hid) h
  · rintro (h | ⟨h, hreads⟩)
    · rw [parse, Content.ofBytes_eq_iff.mpr h]
      rfl
    · rw [parse, Content.ofBytes_eq_iff.mpr h]
      exact ofContent_of_reads hreads

/-- The mark alone is no image yet. -/
example : Parses ⟨#[0x7f, 0x45, 0x4c, 0x46]⟩ (.error .truncated) :=
  .unidentified (.noClass (by decide) rfl)

end Image

end BootConfig.Elf
