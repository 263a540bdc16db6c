import BootConfig.Proofs.Elf.Fields
import BootConfig.Proofs.Elf.Layout
import BootConfig.Proofs.Elf.Search

/-!
# Which entry a symbol comes from

The first entry of a name decides. No entry behind it is looked at, so a symbol that is defined only
by a later one of the same name is not found.
-/

namespace BootConfig.Elf

namespace Image

/-! ### Entries -/

/-- Where the entry of a number starts. -/
def entryOffset (image : Image) (n : Nat) : Nat :=
  image.symbols.offset.toNat + n * image.symbols.entrySize.toNat

/-- The entry of a number has a name: its first field lies in the image, and the name stands at the
index that this field holds. -/
structure EntryNamed (image : Image) (n : Nat) (name : List UInt8) : Prop where
  field_le : image.entryOffset n + 4 ≤ image.bytes.size
  hasName : HasName image.bytes image.symbolNames (image.wordAt (image.entryOffset n)) name

/-- Why the entry of a number has no name. -/
inductive EntryNameless (image : Image) (n : Nat) : Prop where
  | outside (h : image.bytes.size < image.entryOffset n + 4)
  | lacksName (h : LacksName image.bytes image.symbolNames (image.wordAt (image.entryOffset n)))

/-- The entry of a number describes a symbol: value, size and index of the section lie in the image
and are those of the symbol. -/
structure Describes (image : Image) (n : Nat) (symbol : Symbol) : Prop where
  value_le : image.entryOffset n + 4 + 4 ≤ image.bytes.size
  size_le : image.entryOffset n + 8 + 4 ≤ image.bytes.size
  sectionIndex_le : image.entryOffset n + 14 + 2 ≤ image.bytes.size
  value_eq : symbol.value = image.wordAt (image.entryOffset n + 4)
  size_eq : symbol.size = image.wordAt (image.entryOffset n + 8)
  sectionIndex_eq : symbol.sectionIndex = image.halfAt (image.entryOffset n + 14)

variable {image : Image} {wanted : List UInt8} {name : String} {count n : Nat} {symbol : Symbol}

private theorem entryNamed_or_nameless (image : Image) (n : Nat) :
    (∃ name, image.EntryNamed n name) ∨ image.EntryNameless n := by
  rcases Nat.lt_or_ge image.bytes.size (image.entryOffset n + 4) with hout | hin
  · exact .inr (.outside hout)
  · rcases hasName_or_lacksName image.bytes image.symbolNames
      (image.wordAt (image.entryOffset n)) with ⟨name, h⟩ | h
    · exact .inl ⟨name, hin, h⟩
    · exact .inr (.lacksName h)

/-- The first entry starts where the table does. -/
theorem entryOffset_zero (image : Image) :
    image.entryOffset 0 = image.symbols.offset.toNat := by
  rw [entryOffset, Nat.zero_mul, Nat.add_zero]

/-- Entries follow each other at the distance that the table gives. -/
theorem entryOffset_succ (image : Image) (n : Nat) :
    image.entryOffset (n + 1) = image.entryOffset n + image.symbols.entrySize.toNat := by
  rw [entryOffset, entryOffset, Nat.succ_mul, Nat.add_assoc]

private theorem symbolAt_eq (image : Image) (offset : Nat) :
    image.symbolAt offset =
      if offset + 16 ≤ image.bytes.size then
        .ok ⟨image.wordAt (offset + 4), image.wordAt (offset + 8), image.halfAt (offset + 14)⟩
      else .error .truncated := by
  simp only [symbolAt, Content.word_eq, Content.half_eq, ite_bind_eq]
  split_ifs <;> first | rfl | omega

/-- A symbol is read exactly if its entry describes it. -/
theorem symbolAt_eq_ok_iff :
    image.symbolAt (image.entryOffset n) = .ok symbol ↔ image.Describes n symbol := by
  rw [symbolAt_eq]
  constructor
  · intro h
    split at h
    next hin =>
      cases h
      exact ⟨by omega, by omega, hin, rfl, rfl, rfl⟩
    next => cases h
  · rintro ⟨-, -, hin, hvalue, hsize, hindex⟩
    rw [if_pos hin, ← hvalue, ← hsize, ← hindex]

private theorem symbolAt_eq_error (h : ∀ symbol, ¬image.Describes n symbol) :
    image.symbolAt (image.entryOffset n) = .error .truncated := by
  rw [symbolAt_eq, if_neg]
  intro hin
  exact h ⟨_, _, _⟩ ⟨by omega, by omega, hin, rfl, rfl, rfl⟩

/-! ### The search for an entry -/

private theorem findEntry_eq_of_otherNames (hn : n ≤ count)
    (h : OtherNames image.EntryNamed wanted n) :
    image.findEntry wanted count (image.entryOffset 0) =
      image.findEntry wanted (count - n) (image.entryOffset n) := by
  induction n with
  | zero => rfl
  | succ n ih =>
    obtain ⟨other, ⟨hin, hname⟩, hne⟩ := h n (Nat.lt_succ_self n)
    have hleft : count - n = count - (n + 1) + 1 := by omega
    rw [ih (by omega) (h.mono (Nat.le_succ n)), hleft, findEntry_succ, Content.word_eq, if_pos hin,
      entryOffset_succ]
    change (image.nameAt _ _ >>= _) = _
    rw [Content.nameAt_eq_ok_iff_hasName.mpr hname]
    exact if_neg hne

private theorem findEntry_eq_of_lt (hn : n < count) (h : OtherNames image.EntryNamed wanted n) :
    image.findEntry wanted count image.symbols.offset.toNat =
      image.word (image.entryOffset n) >>= fun index ↦
        image.nameAt image.symbolNames index >>= fun entryName ↦
          if entryName = wanted then .ok (some (image.entryOffset n))
          else image.findEntry wanted (count - n - 1) (image.entryOffset (n + 1)) := by
  have hleft : count - n = count - n - 1 + 1 := by omega
  rw [← entryOffset_zero, findEntry_eq_of_otherNames (Nat.le_of_lt hn) h, hleft, findEntry_succ,
    entryOffset_succ, Nat.add_sub_cancel]

private theorem findEntry_of_isFirst (h : IsFirst image.EntryNamed wanted count n) :
    image.findEntry wanted count image.symbols.offset.toNat =
      .ok (some (image.entryOffset n)) := by
  rw [findEntry_eq_of_lt h.lt h.others, Content.word_eq, if_pos h.named.field_le]
  change (image.nameAt _ _ >>= _) = _
  rw [Content.nameAt_eq_ok_iff_hasName.mpr h.named.hasName]
  exact if_pos rfl

private theorem findEntry_of_isObstacle
    (h : IsObstacle image.EntryNamed image.EntryNameless wanted count n) :
    image.findEntry wanted count image.symbols.offset.toNat = .error .truncated := by
  rw [findEntry_eq_of_lt h.lt h.others, Content.word_eq]
  rcases h.nameless with hout | hlacks
  · rw [if_neg (by omega)]
    rfl
  · split
    · change (image.nameAt _ _ >>= _) = _
      rw [Content.nameAt_of_lacksName hlacks]
      rfl
    · rfl

private theorem findEntry_of_otherNames (h : OtherNames image.EntryNamed wanted count) :
    image.findEntry wanted count image.symbols.offset.toNat = .ok none := by
  rw [← entryOffset_zero, findEntry_eq_of_otherNames (Nat.le_refl count) h, Nat.sub_self]
  rfl

/-! ### The symbol of a name -/

/-- How the search for a symbol ends. -/
inductive Fetches (image : Image) (name : String) : Except Error Symbol → Prop where
  | defined {n : Nat} {symbol : Symbol}
      (h : IsFirst image.EntryNamed (Bytes.toList name.toUTF8) image.symbolCount n)
      (hdescribes : image.Describes n symbol) (hdefined : symbol.sectionIndex ≠ 0) :
      Fetches image name (.ok symbol)
  | undefined {n : Nat} {symbol : Symbol}
      (h : IsFirst image.EntryNamed (Bytes.toList name.toUTF8) image.symbolCount n)
      (hdescribes : image.Describes n symbol) (hundefined : symbol.sectionIndex = 0) :
      Fetches image name (.error (.symbolNotFound name))
  | absent (h : OtherNames image.EntryNamed (Bytes.toList name.toUTF8) image.symbolCount) :
      Fetches image name (.error (.symbolNotFound name))
  | cut {n : Nat} (h : IsFirst image.EntryNamed (Bytes.toList name.toUTF8) image.symbolCount n)
      (hcut : ∀ symbol, ¬image.Describes n symbol) :
      Fetches image name (.error .truncated)
  | unreadable {n : Nat}
      (h : IsObstacle image.EntryNamed image.EntryNameless (Bytes.toList name.toUTF8)
        image.symbolCount n) :
      Fetches image name (.error .truncated)

private theorem findSymbol_of_isFirst
    (h : IsFirst image.EntryNamed (Bytes.toList name.toUTF8) image.symbolCount n) :
    image.findSymbol name = image.symbolAt (image.entryOffset n) >>= fun symbol ↦
      if symbol.sectionIndex = 0 then .error (.symbolNotFound name) else .ok symbol := by
  rw [findSymbol, findEntry_of_isFirst h]
  rfl

/-- The search for a symbol ends as the entries say. -/
theorem findSymbol_eq_iff {answer : Except Error Symbol} :
    image.findSymbol name = answer ↔ image.Fetches name answer := by
  constructor
  · rintro rfl
    have hnames : ∀ i, i < image.symbolCount →
        (∃ name, image.EntryNamed i name) ∨ image.EntryNameless i :=
      fun i _ ↦ image.entryNamed_or_nameless i
    rcases search_ends (Bytes.toList name.toUTF8) hnames with ⟨n, h⟩ | ⟨n, h⟩ | h
    · rw [findSymbol_of_isFirst h]
      by_cases hsymbol : ∃ symbol, image.Describes n symbol
      · obtain ⟨symbol, hsymbol⟩ := hsymbol
        rw [symbolAt_eq_ok_iff.mpr hsymbol]
        change image.Fetches name (if symbol.sectionIndex = 0 then _ else _)
        split
        next hindex => exact .undefined h hsymbol hindex
        next hindex => exact .defined h hsymbol hindex
      · have hcut := not_exists.mp hsymbol
        rw [symbolAt_eq_error hcut]
        exact .cut h hcut
    · rw [findSymbol, findEntry_of_isObstacle h]
      exact .unreadable h
    · rw [findSymbol_of_findEntry_none (findEntry_of_otherNames h)]
      exact .absent h
  · rintro (⟨h, hsymbol, hindex⟩ | ⟨h, hsymbol, hindex⟩ | h | ⟨h, hcut⟩ | h)
    · rw [findSymbol_of_isFirst h, symbolAt_eq_ok_iff.mpr hsymbol]
      exact if_neg hindex
    · rw [findSymbol_of_isFirst h, symbolAt_eq_ok_iff.mpr hsymbol]
      exact if_pos hindex
    · exact findSymbol_of_findEntry_none (findEntry_of_otherNames h)
    · rw [findSymbol_of_isFirst h, symbolAt_eq_error hcut]
      rfl
    · rw [findSymbol, findEntry_of_isObstacle h]
      rfl

/-! ### Names with a zero -/

private theorem mem_toList_toUTF8_iff {text : String} {byte : UInt8} :
    byte ∈ Bytes.toList text.toUTF8 ↔ ∃ c ∈ text.toList, byte ∈ String.utf8EncodeChar c := by
  rw [String.toUTF8_eq_toByteArray, ← String.utf8Encode_toList, List.utf8Encode, Bytes.toList,
    List.data_toByteArray, List.mem_flatMap]

/-- No entry has a name with a zero in it. -/
theorem EntryNamed.zero_notMem (h : image.EntryNamed n (Bytes.toList name.toUTF8)) :
    '\x00' ∉ name.toList := by
  intro hmem
  exact h.hasName.zero_notMem (mem_toList_toUTF8_iff.mpr ⟨_, hmem, by decide⟩)

/-- A symbol is found exactly if the first entry of the name describes it and defines it. It is
not found exactly if all entries have other names, or the first one of the name does not define it,
whatever stands behind. Else the image ends before what is to be read. A name with a zero in it is
never found. -/
theorem first_entry_decides (image : Image) (name : String) :
    (∀ symbol, image.findSymbol name = .ok symbol ↔
      ∃ n, IsFirst image.EntryNamed (Bytes.toList name.toUTF8) image.symbolCount n ∧
        image.Describes n symbol ∧ symbol.sectionIndex ≠ 0) ∧
    (image.findSymbol name = .error (.symbolNotFound name) ↔
      OtherNames image.EntryNamed (Bytes.toList name.toUTF8) image.symbolCount ∨
        ∃ n symbol, IsFirst image.EntryNamed (Bytes.toList name.toUTF8) image.symbolCount n ∧
          image.Describes n symbol ∧ symbol.sectionIndex = 0) ∧
    ((∃ symbol, image.findSymbol name = .ok symbol) ∨
      image.findSymbol name = .error (.symbolNotFound name) ∨
      image.findSymbol name = .error .truncated) ∧
    ('\x00' ∈ name.toList → ∀ symbol, image.findSymbol name ≠ .ok symbol) := by
  refine ⟨?_, ?_, ?_, ?_⟩
  · intro symbol
    rw [findSymbol_eq_iff]
    constructor
    · rintro ⟨h, hdescribes, hdefined⟩
      exact ⟨_, h, hdescribes, hdefined⟩
    · rintro ⟨n, h, hdescribes, hdefined⟩
      exact .defined h hdescribes hdefined
  · rw [findSymbol_eq_iff]
    constructor
    · rintro (- | ⟨h, hdescribes, hundefined⟩ | h)
      · exact .inr ⟨_, _, h, hdescribes, hundefined⟩
      · exact .inl h
    · rintro (h | ⟨n, symbol, h, hdescribes, hundefined⟩)
      · exact .absent h
      · exact .undefined h hdescribes hundefined
  · generalize hanswer : image.findSymbol name = answer
    obtain (_ | _ | _ | _ | _) := findSymbol_eq_iff.mp hanswer
    · exact .inl ⟨_, rfl⟩
    · exact .inr (.inl rfl)
    · exact .inr (.inl rfl)
    · exact .inr (.inr rfl)
    · exact .inr (.inr rfl)
  · intro hmem symbol hfound
    cases findSymbol_eq_iff.mp hfound with
    | defined h => exact h.named.zero_notMem hmem

/-- In the small image an entry defines one symbol, another one does not define its symbol, and a
zero behind a name is part of the name. -/
theorem first_entry_decides_sample :
    ∃ image, Image.parse Layout.sampleBytes = .ok image ∧
      (∃ n, IsFirst image.EntryNamed (Bytes.toList "stage_flags".toUTF8) image.symbolCount n ∧
        image.Describes n ⟨0x7c04, 1, 4⟩) ∧
      image.findSymbol "extern_sym" = .error (.symbolNotFound "extern_sym") ∧
      '\x00' ∈ "stage_flags\x00".toList ∧
      ∀ symbol, image.findSymbol "stage_flags\x00" ≠ .ok symbol := by
  obtain ⟨image, hparse, -⟩ := (Patch.ofBytes_eq_ok_iff _ _ _ _).mp Layout.ofBytes_sample
  have hfound : (Image.parse Layout.sampleBytes).toOption.all (fun image ↦
      image.findSymbol "stage_flags" = .ok ⟨0x7c04, 1, 4⟩ ∧
        image.findSymbol "extern_sym" = .error (.symbolNotFound "extern_sym")) = true := by
    decide +kernel
  rw [hparse] at hfound
  simp only [Except.toOption, Option.all_some, decide_eq_true_eq] at hfound
  obtain ⟨hflags, hextern⟩ := hfound
  have hzero : '\x00' ∈ "stage_flags\x00".toList := by decide
  obtain ⟨n, hfirst, hdescribes, -⟩ :=
    ((first_entry_decides image "stage_flags").1 _).mp hflags
  exact ⟨image, hparse, ⟨n, hfirst, hdescribes⟩, hextern, hzero,
    (first_entry_decides image "stage_flags\x00").2.2.2 hzero⟩

end Image

end BootConfig.Elf
