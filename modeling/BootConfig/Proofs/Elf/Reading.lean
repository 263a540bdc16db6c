import BootConfig.Elf.Patch
import BootConfig.Proofs.Bytes.Window

/-!
# What reading an image depends on

Every answer about an image comes from windows of its bytes. So bytes that retain others in the
windows that are read give the same answers, except that they may answer where the others end too
early. One statement for each function says which windows these are.
-/

namespace BootConfig.Elf

open BootConfig.Bytes (Retains Covers)

/-! ### Answers -/

/-- Steps give a result exactly if the first does and the next one does from there. -/
theorem bind_eq_ok_iff {α β : Type} {answer : Except Error α} {next : α → Except Error β}
    {result : β} :
    answer >>= next = .ok result ↔ ∃ value, answer = .ok value ∧ next value = .ok result := by
  cases answer with
  | error e =>
    constructor
    · intro h
      cases h
    · rintro ⟨value, hv, -⟩
      cases hv
  | ok value =>
    constructor
    · intro h
      exact ⟨value, rfl, h⟩
    · rintro ⟨_, hv, h⟩
      cases hv
      exact h

/-- What is made of the result of steps is made of the last one's. -/
theorem map_bind_eq {α β γ : Type} (answer : Except Error α) (next : α → Except Error β)
    (f : β → γ) : (answer >>= next).map f = answer >>= fun value ↦ (next value).map f := by
  cases answer <;> rfl

/-! ### Answers that agree unless one is truncated -/

/-- The second answer is the first, unless the first is that the image is truncated. -/
def SameUnlessTruncated {α : Type} (answer other : Except Error α) : Prop :=
  answer ≠ .error .truncated → other = answer

namespace SameUnlessTruncated

variable {α β : Type}

/-- An answer agrees with itself. -/
theorem refl (answer : Except Error α) : SameUnlessTruncated answer answer :=
  fun _ ↦ rfl

/-- Anything agrees with a truncation. -/
theorem truncated (other : Except Error α) : SameUnlessTruncated (.error .truncated) other :=
  fun h ↦ (h rfl).elim

private theorem of_ok {answer other : Except Error α}
    (hv : ∀ value, answer = .ok value → other = .ok value)
    (he : ∀ e, answer = .error e → e = .truncated) : SameUnlessTruncated answer other := by
  intro ht
  cases ha : answer with
  | error e => exact (ht (by rw [ha, he e ha])).elim
  | ok value => exact hv value ha

/-- A result is the other answer too. -/
theorem eq_ok {answer other : Except Error α} (h : SameUnlessTruncated answer other) {value : α}
    (hv : answer = .ok value) : other = .ok value := by
  rw [h (by rw [hv]; exact fun he ↦ nomatch he), hv]

/-- Answers that agree both ways are the same, also where one is truncated. -/
theorem eq_of_symm {answer other : Except Error α} (h : SameUnlessTruncated answer other)
    (hs : SameUnlessTruncated other answer) : other = answer := by
  by_cases ht : answer = .error .truncated
  · by_cases hb : other = .error .truncated
    · rw [ht, hb]
    · exact (hs hb).symm
  · exact h ht

/-- Steps that agree, taken after answers that agree when one is made into the other, agree. -/
theorem bind_of_map {γ : Type} {answer : Except Error α} {other : Except Error γ} {f : α → γ}
    {next : α → Except Error β} {following : γ → Except Error β}
    (h : SameUnlessTruncated (answer.map f) other)
    (hn : ∀ value, answer = .ok value → SameUnlessTruncated (next value) (following (f value))) :
    SameUnlessTruncated (answer >>= next) (other >>= following) := by
  intro ht
  cases ha : answer with
  | error e =>
    subst ha
    rw [h fun he ↦ ht (by rw [Except.error.inj he]; rfl)]
    rfl
  | ok value =>
    rw [ha] at h ht
    rw [h.eq_ok rfl]
    exact hn value ha ht

/-- Steps that agree, taken after answers that agree, agree. -/
theorem bind {answer other : Except Error α} {next following : α → Except Error β}
    (h : SameUnlessTruncated answer other)
    (hn : ∀ value, answer = .ok value → SameUnlessTruncated (next value) (following value)) :
    SameUnlessTruncated (answer >>= next) (other >>= following) := by
  have hid : answer.map id = answer := by cases answer <;> rfl
  apply bind_of_map (f := id) _ hn
  rwa [hid]

/-- What is made of answers that agree agrees. -/
theorem map {answer other : Except Error α} (h : SameUnlessTruncated answer other) (f : α → β) :
    SameUnlessTruncated (answer.map f) (other.map f) := by
  intro ht
  rw [h]
  intro ha
  apply ht
  rw [ha]
  rfl

private theorem map_bind {γ : Type} {answer other : Except Error α} {next : α → Except Error γ}
    {following : α → Except Error β} {f : γ → β} (h : SameUnlessTruncated answer other)
    (hn : ∀ value, answer = .ok value →
      SameUnlessTruncated ((next value).map f) (following value)) :
    SameUnlessTruncated ((answer >>= next).map f) (other >>= following) := by
  rw [map_bind_eq]
  exact h.bind hn

/-- Lists of answers agree if the answers for each element do. -/
theorem mapM {l : List α} {f g : α → Except Error β}
    (h : ∀ a ∈ l, SameUnlessTruncated (f a) (g a)) :
    SameUnlessTruncated (l.mapM f) (l.mapM g) := by
  induction l with
  | nil => exact refl _
  | cons a l ih =>
    rw [List.mapM_cons, List.mapM_cons]
    apply bind (h a List.mem_cons_self)
    intro b _
    apply bind (ih fun x hx ↦ h x (List.mem_cons_of_mem a hx))
    intro bs _
    exact refl _

end SameUnlessTruncated

/-! ### Reading sections -/

/-- The byte that announces a byte order. -/
def encodingByte : ByteOrder → UInt8
  | .little => 1
  | .big => 2

/-- The same byte order with other bytes. -/
def Content.withBytes (content : Content) (bytes : ByteArray) : Content :=
  { content with bytes }

namespace Content

variable {P : Nat → Prop} {content : Content} {bytes : ByteArray}

/-- A slice that is read is one of the bytes. -/
theorem slice_eq_ok_iff (offset size : Nat) (shown : List UInt8) :
    content.slice offset size = .ok shown ↔
      Bytes.slice? content.bytes offset size = some shown := by
  rw [slice]
  cases Bytes.slice? content.bytes offset size <;> simp

private theorem slice_eq_error {offset size : Nat} {e : Error}
    (h : content.slice offset size = .error e) :
    e = .truncated := by
  rw [slice] at h
  cases hs : Bytes.slice? content.bytes offset size with
  | none =>
    rw [hs] at h
    exact (Except.error.inj h).symm
  | some shown =>
    rw [hs] at h
    cases h

/-- Only the bounds of a slice matter where its bytes are dropped. -/
theorem slice_map_const {α : Type} (offset size : Nat) (value : α) :
    (content.slice offset size).map (fun _ ↦ value) =
      if offset + size ≤ content.bytes.size then .ok value else .error .truncated := by
  rw [slice]
  cases hs : Bytes.slice? content.bytes offset size with
  | none =>
    rw [Bytes.slice?_eq_none_iff] at hs
    rw [if_neg (by omega)]
    rfl
  | some shown =>
    rw [Bytes.slice?_eq_some_iff] at hs
    rw [if_pos hs.1]
    rfl

private theorem slice_same (h : Retains P content.bytes bytes) {offset size : Nat}
    (hp : Covers P offset size) :
    SameUnlessTruncated (content.slice offset size)
      ((content.withBytes bytes).slice offset size) := by
  apply SameUnlessTruncated.of_ok
  · intro shown hs
    rw [slice_eq_ok_iff] at hs ⊢
    exact h.slice? hp hs
  · intro e
    exact slice_eq_error

private theorem number_same (h : Retains P content.bytes bytes) {offset size : Nat}
    (hp : Covers P offset size) :
    SameUnlessTruncated (content.number offset size)
      ((content.withBytes bytes).number offset size) :=
  (slice_same h hp).map _

/-- A 16-bit number depends on its two bytes. -/
theorem half_same (h : Retains P content.bytes bytes) {offset : Nat} (hp : Covers P offset 2) :
    SameUnlessTruncated (content.half offset) ((content.withBytes bytes).half offset) :=
  (number_same h hp).map _

/-- A 32-bit number depends on its four bytes. -/
theorem word_same (h : Retains P content.bytes bytes) {offset : Nat} (hp : Covers P offset 4) :
    SameUnlessTruncated (content.word offset) ((content.withBytes bytes).word offset) :=
  (number_same h hp).map _

private theorem sectionAt_same (h : Retains P content.bytes bytes) {offset : Nat}
    (hp : Covers P offset 40) :
    SameUnlessTruncated (content.sectionAt offset)
      ((content.withBytes bytes).sectionAt offset) := by
  apply (word_same h (hp.mono (by omega) (by omega))).bind
  intro nameIndex _
  apply (word_same h (hp.mono (by omega) (by omega))).bind
  intro address _
  apply (word_same h (hp.mono (by omega) (by omega))).bind
  intro start _
  apply (word_same h (hp.mono (by omega) (by omega))).bind
  intro size _
  apply (word_same h (hp.mono (by omega) (by omega))).bind
  intro entrySize _
  exact .refl _

private theorem sections_same (h : Retains P content.bytes bytes) {start stride count : Nat}
    (hp : ∀ n, n < count → Covers P (start + n * stride) 40) :
    SameUnlessTruncated (content.sections start stride count)
      ((content.withBytes bytes).sections start stride count) := by
  apply SameUnlessTruncated.mapM
  intro n hn
  exact sectionAt_same h (hp n (List.mem_range.mp hn))

/-- A name that is read lies in its section, and the section in the image. -/
theorem nameAt_eq_ok_iff (table : Section) (index : UInt32) (name : List UInt8) :
    content.nameAt table index = .ok name ↔
      table.offset.toNat + table.size.toNat ≤ content.bytes.size ∧
        Bytes.terminated? content.bytes (table.offset.toNat + index.toNat)
          (table.size.toNat - index.toNat) = some name := by
  simp only [nameAt]
  split
  · next hin =>
    cases Bytes.terminated? content.bytes (table.offset.toNat + index.toNat)
      (table.size.toNat - index.toNat) <;> simp [hin]
  · next hout => simp [hout]

/-- A name is refused for one cause only. -/
theorem nameAt_eq_error {table : Section} {index : UInt32} {e : Error}
    (h : content.nameAt table index = .error e) : e = .truncated := by
  simp only [nameAt] at h
  split at h
  · cases hn : Bytes.terminated? content.bytes (table.offset.toNat + index.toNat)
        (table.size.toNat - index.toNat) with
    | none =>
      rw [hn] at h
      exact (Except.error.inj h).symm
    | some name =>
      rw [hn] at h
      cases h
  · exact (Except.error.inj h).symm

/-- The section of names is read first, and then what starts at the index. -/
theorem nameAt_eq_bind (table : Section) (index : UInt32) :
    content.nameAt table index =
      (content.slice table.offset.toNat table.size.toNat >>= fun _ ↦
        (Bytes.terminated? content.bytes (table.offset.toNat + index.toNat)
          (table.size.toNat - index.toNat)).elim (.error .truncated) .ok) := by
  rw [slice, Bytes.slice?_eq]
  simp only [nameAt]
  split
  · cases Bytes.terminated? content.bytes (table.offset.toNat + index.toNat)
      (table.size.toNat - index.toNat) <;> rfl
  · rfl

/-- A name depends on the section of names. -/
theorem nameAt_same (h : Retains P content.bytes bytes) {table : Section}
    (hp : Covers P table.offset.toNat table.size.toNat) (index : UInt32) :
    SameUnlessTruncated (content.nameAt table index)
      ((content.withBytes bytes).nameAt table index) := by
  apply SameUnlessTruncated.of_ok
  · intro name hn
    rw [nameAt_eq_ok_iff] at hn ⊢
    obtain ⟨hin, hn⟩ := hn
    refine ⟨Nat.le_trans hin h.size_le, ?_⟩
    by_cases hi : index.toNat ≤ table.size.toNat
    · exact h.terminated? (hp.mono (by omega) (by omega)) hn
    · rw [Nat.sub_eq_zero_of_le (by omega), Bytes.terminated?] at hn
      cases hn
  · intro e
    exact nameAt_eq_error

/-- The search for a table reads the name of the first section and goes on if it is another. -/
theorem findSection_cons (names : Section) (table : Table) (candidate : Section)
    (rest : List Section) :
    content.findSection names table (candidate :: rest) =
      content.nameAt names candidate.nameIndex >>= fun name ↦
        if name = Bytes.toList table.name.toUTF8 then .ok candidate
        else content.findSection names table rest := by
  rw [findSection]
  cases content.nameAt names candidate.nameIndex <;> rfl

private theorem findSection_same (h : Retains P content.bytes bytes) {names : Section}
    (hp : Covers P names.offset.toNat names.size.toNat) (table : Table) (l : List Section) :
    SameUnlessTruncated (content.findSection names table l)
      ((content.withBytes bytes).findSection names table l) := by
  induction l with
  | nil => exact .refl _
  | cons candidate rest ih =>
    rw [findSection_cons, findSection_cons]
    apply (nameAt_same h hp candidate.nameIndex).bind
    intro name _
    split
    · exact .refl _
    · exact ih

/-- A byte announces a byte order exactly if it is the order's own. -/
theorem orderOf_eq_ok_iff (encoding : UInt8) (order : ByteOrder) :
    orderOf encoding = .ok order ↔ encoding = encodingByte order := by
  rw [orderOf]
  split
  · next h =>
    subst h
    cases order <;> simp [encodingByte]
  · next h =>
    split
    · next h' =>
      subst h'
      cases order <;> simp [encodingByte]
    · next h' => cases order <;> simp [encodingByte, h, h']

/-- Bytes are identified exactly if they start with the mark, the class and a byte order. -/
theorem ofBytes_eq_ok_iff (a : ByteArray) (content : Content) :
    ofBytes a = .ok content ↔
      content.bytes = a ∧ Bytes.slice? a 0 magic.length = some magic ∧ a[4]? = some class32 ∧
        a[5]? = some (encodingByte content.order) := by
  rw [ofBytes]
  split
  · next hmark =>
    cases hclass : a[4]? with
    | none => simp
    | some imageClass =>
      dsimp only
      split
      · next h =>
        cases hencoding : a[5]? with
        | none => simp
        | some encoding =>
          simp only [Option.some.injEq, ← orderOf_eq_ok_iff, h]
          cases orderOf encoding with
          | error e => simp [Except.map]
          | ok order =>
            cases content
            simp [Except.map, eq_comm, hmark]
      · next h => simp [h]
  · next hmark => simp [hmark]

private theorem bytes_of_ofBytes {a : ByteArray} {content : Content} (h : ofBytes a = .ok content) :
    content.bytes = a :=
  ((ofBytes_eq_ok_iff a content).mp h).1

private theorem ofBytes_same {a b : ByteArray} (h : Retains P a b) (hp : Covers P 0 6)
    (hmark : 4 ≤ a.size) :
    SameUnlessTruncated ((ofBytes a).map (·.withBytes b)) (ofBytes b) := by
  -- Bytes that are too few for the mark are no image at all, and more of them might be one.
  have hslice : Bytes.slice? b 0 magic.length = Bytes.slice? a 0 magic.length := by
    cases hs : Bytes.slice? a 0 magic.length with
    | none =>
      rw [Bytes.slice?_eq_none_iff] at hs
      simp only [magic, List.length_cons, List.length_nil] at hs
      omega
    | some shown => exact h.slice? (hp.mono (by omega) (by simp [magic])) hs
  have hbyte (i : Nat) (hi : i < 6) {byte : UInt8} (hb : a[i]? = some byte) :
      b[i]? = some byte := by
    rw [h.getElem?_eq i (hp i (by omega) (by omega)) (Bytes.lt_size_of_getElem? hb), hb]
  rw [ofBytes, ofBytes, hslice]
  split
  · cases hclass : a[4]? with
    | none => exact .truncated _
    | some imageClass =>
      rw [hbyte 4 (by omega) hclass]
      dsimp only
      split
      · cases hencoding : a[5]? with
        | none => exact .truncated _
        | some encoding =>
          rw [hbyte 5 (by omega) hencoding]
          dsimp only
          cases orderOf encoding <;> exact .refl _
      · exact .refl _
  · exact .refl _

/-- The positions in question are among others those from which an image's sections are read: the
fields of the header, the section headers, and the section of their names. -/
structure CoversSections (content : Content) (P : Nat → Prop) : Prop where
  start : Covers P 32 4
  fields : Covers P 46 6
  headers : ∀ start stride count, content.word 32 = .ok start → content.half 46 = .ok stride →
    content.half 48 = .ok count →
      ∀ n, n < count.toNat → Covers P (start.toNat + n * stride.toNat) 40
  names : ∀ start stride count index sections table, content.word 32 = .ok start →
    content.half 46 = .ok stride → content.half 48 = .ok count → content.half 50 = .ok index →
    content.sections start.toNat stride.toNat count.toNat = .ok sections →
    sections[UInt16.toNat index]? = some table → Covers P table.offset.toNat table.size.toNat

end Content

/-- The same sections and tables with other bytes. -/
def Image.withBytes (image : Image) (bytes : ByteArray) : Image :=
  { image with bytes }

namespace Image

variable {P : Nat → Prop} {bytes : ByteArray}

/-- An image is read from its content exactly if the header, the section headers and the three
tables are. -/
theorem ofContent_eq_ok_iff (content : Content) (image : Image) :
    ofContent content = .ok image ↔
      image.toContent = content ∧ ∃ start stride count index,
        content.word 32 = .ok start ∧ content.half 46 = .ok stride ∧
        content.half 48 = .ok count ∧ content.half 50 = .ok index ∧
        content.sections start.toNat stride.toNat count.toNat = .ok image.sections ∧
        image.sections[index.toNat]? = some image.sectionNames ∧
        content.findSection image.sectionNames .symbols image.sections = .ok image.symbols ∧
        content.findSection image.sectionNames .symbolNames image.sections =
          .ok image.symbolNames := by
  constructor
  · intro h
    obtain ⟨start, hstart, h⟩ := bind_eq_ok_iff.mp h
    obtain ⟨stride, hstride, h⟩ := bind_eq_ok_iff.mp h
    obtain ⟨count, hcount, h⟩ := bind_eq_ok_iff.mp h
    obtain ⟨index, hindex, h⟩ := bind_eq_ok_iff.mp h
    obtain ⟨sections, hsections, h⟩ := bind_eq_ok_iff.mp h
    cases hnames : sections[index.toNat]? with
    | none =>
      rw [hnames] at h
      cases h
    | some sectionNames =>
      rw [hnames] at h
      obtain ⟨symbols, hsymbols, h⟩ := bind_eq_ok_iff.mp h
      obtain ⟨symbolNames, hsymbolNames, h⟩ := bind_eq_ok_iff.mp h
      cases h
      exact ⟨rfl, start, stride, count, index, hstart, hstride, hcount, hindex, hsections, hnames,
        hsymbols, hsymbolNames⟩
  · rintro ⟨rfl, start, stride, count, index, hstart, hstride, hcount, hindex, hsections, hnames,
      hsymbols, hsymbolNames⟩
    apply bind_eq_ok_iff.mpr ⟨start, hstart, _⟩
    apply bind_eq_ok_iff.mpr ⟨stride, hstride, _⟩
    apply bind_eq_ok_iff.mpr ⟨count, hcount, _⟩
    apply bind_eq_ok_iff.mpr ⟨index, hindex, _⟩
    apply bind_eq_ok_iff.mpr ⟨image.sections, hsections, _⟩
    rw [hnames]
    apply bind_eq_ok_iff.mpr ⟨image.symbols, hsymbols, _⟩
    apply bind_eq_ok_iff.mpr ⟨image.symbolNames, hsymbolNames, _⟩
    rfl

/-- Bytes are parsed exactly if they are identified and their content is an image. -/
theorem parse_eq_ok_iff (a : ByteArray) (image : Image) :
    parse a = .ok image ↔
      Content.ofBytes a = .ok image.toContent ∧ ofContent image.toContent = .ok image := by
  rw [parse, bind_eq_ok_iff]
  constructor
  · rintro ⟨content, hid, h⟩
    obtain ⟨rfl, -⟩ := (ofContent_eq_ok_iff content image).mp h
    exact ⟨hid, h⟩
  · rintro ⟨hid, h⟩
    exact ⟨image.toContent, hid, h⟩

/-- What is parsed are the bytes as they are. -/
theorem bytes_of_parse {a : ByteArray} {image : Image} (h : parse a = .ok image) :
    image.bytes = a :=
  Content.bytes_of_ofBytes ((parse_eq_ok_iff a image).mp h).1

private theorem ofContent_same {content : Content} (h : Retains P content.bytes bytes)
    (hp : content.CoversSections P) :
    SameUnlessTruncated ((ofContent content).map (·.withBytes bytes))
      (ofContent (content.withBytes bytes)) := by
  apply (content.word_same h hp.start).map_bind
  intro start hstart
  apply (content.half_same h (hp.fields.mono (by omega) (by omega))).map_bind
  intro stride hstride
  apply (content.half_same h (hp.fields.mono (by omega) (by omega))).map_bind
  intro count hcount
  apply (content.half_same h (hp.fields.mono (by omega) (by omega))).map_bind
  intro index hindex
  apply (content.sections_same h (hp.headers start stride count hstart hstride hcount)).map_bind
  intro sections hsections
  cases hnames : sections[index.toNat]? with
  | none => exact .refl _
  | some names =>
    have hp := hp.names start stride count index sections names hstart hstride hcount hindex
      hsections hnames
    apply (content.findSection_same h hp .symbols sections).map_bind
    intro symbols _
    apply (content.findSection_same h hp .symbolNames sections).map_bind
    intro symbolNames _
    exact .refl _

/-- Parsing depends on the identification and on the positions that hold the sections. -/
theorem parse_same {a b : ByteArray} (h : Retains P a b) (hmark : 4 ≤ a.size)
    (hp : Covers P 0 6)
    (hs : ∀ content, Content.ofBytes a = .ok content → content.CoversSections P) :
    SameUnlessTruncated ((parse a).map (·.withBytes b)) (parse b) := by
  rw [parse, parse, map_bind_eq]
  apply (Content.ofBytes_same h hp hmark).bind_of_map
  intro content hid
  have hb := Content.bytes_of_ofBytes hid
  exact ofContent_same (by rw [hb]; exact h) (hs content hid)

end Image

end BootConfig.Elf
