import BootConfig.Proofs.Bytes.Shows
import BootConfig.Proofs.Elf.Reading

/-!
# Searching by name

Sections and symbols are searched alike: entries are looked at one after the other, until one has
the name or its name cannot be read. So a search ends at the first entry of the name if all entries
before it have readable names, at an entry without a readable name if no entry before it has the
name, and else behind the last one.
-/

namespace BootConfig.Elf

open BootConfig.Bytes (Shows)

/-! ### Names -/

/-- A name stands at an index of a section of names: the section lies in the image, and the name
with a zero byte behind it lies in the section. -/
structure HasName (bytes : ByteArray) (table : Section) (index : UInt32) (name : List UInt8) :
    Prop where
  table_le : table.offset.toNat + table.size.toNat ≤ bytes.size
  zero_notMem : 0 ∉ name
  lt_size : index.toNat + name.length < table.size.toNat
  shows : Shows bytes (table.offset.toNat + index.toNat) (name ++ [0])

/-- Why no name stands at an index of a section of names. -/
inductive LacksName (bytes : ByteArray) (table : Section) (index : UInt32) : Prop where
  | outside (h : bytes.size < table.offset.toNat + table.size.toNat)
  | pastEnd (h : table.size.toNat < index.toNat)
  | unended (h : ∀ i, index.toNat ≤ i → i < table.size.toNat →
      bytes[table.offset.toNat + i]? ≠ some 0)

variable {bytes : ByteArray} {table : Section} {index : UInt32}

private theorem HasName.not_lacksName {name : List UInt8} (h : HasName bytes table index name) :
    ¬LacksName bytes table index := by
  have hin := h.table_le
  have hlt := h.lt_size
  rintro (hout | hpast | hunended)
  · omega
  · omega
  · have hzero := (Shows.right h.shows).head
    rw [Nat.add_assoc] at hzero
    exact hunended _ (Nat.le_add_right _ _) hlt hzero

/-- A name stands at an index, or there is a cause why none does. -/
theorem hasName_or_lacksName (bytes : ByteArray) (table : Section) (index : UInt32) :
    (∃ name, HasName bytes table index name) ∨ LacksName bytes table index := by
  rcases Nat.lt_or_ge bytes.size (table.offset.toNat + table.size.toNat) with hout | hin
  · exact .inr (.outside hout)
  rcases Nat.lt_or_ge table.size.toNat index.toNat with hpast | hindex
  · exact .inr (.pastEnd hpast)
  -- The index lies in the section, so what may be missing is the zero byte.
  cases h : Bytes.terminated? bytes (table.offset.toNat + index.toNat)
      (table.size.toNat - index.toNat) with
  | some name =>
    obtain ⟨hmem, hlength, hshows⟩ := Bytes.terminated?_eq_some_iff.mp h
    exact .inl ⟨name, hin, hmem, by omega, hshows⟩
  | none =>
    rw [Bytes.terminated?_eq_none_iff (by omega)] at h
    refine .inr (.unended fun i hlow hhigh ↦ ?_)
    have hbyte := h (i - index.toNat) (by omega)
    rwa [Nat.add_assoc, Nat.add_sub_cancel' hlow] at hbyte

namespace Content

variable {content : Content}

/-- A name is read exactly if it stands at the index. -/
theorem nameAt_eq_ok_iff_hasName {name : List UInt8} :
    content.nameAt table index = .ok name ↔ HasName content.bytes table index name := by
  rw [nameAt_eq_ok_iff, Bytes.terminated?_eq_some_iff]
  constructor
  · rintro ⟨hin, hmem, hlength, hshows⟩
    exact ⟨hin, hmem, by omega, hshows⟩
  · rintro ⟨hin, hmem, hlt, hshows⟩
    exact ⟨hin, hmem, by omega, hshows⟩

/-- No name is read where none stands. -/
theorem nameAt_of_lacksName (h : LacksName content.bytes table index) :
    content.nameAt table index = .error .truncated := by
  cases hname : content.nameAt table index with
  | error e => rw [nameAt_eq_error hname]
  | ok name => exact ((nameAt_eq_ok_iff_hasName.mp hname).not_lacksName h).elim

end Content

/-! ### First entries -/

/-- All entries before the one of a number have readable names, and none of them the wanted one. -/
def OtherNames (named : Nat → List UInt8 → Prop) (wanted : List UInt8) (n : Nat) : Prop :=
  ∀ i, i < n → ∃ other, named i other ∧ other ≠ wanted

/-- An entry is the first of the wanted name, and a search comes to it. -/
structure IsFirst (named : Nat → List UInt8 → Prop) (wanted : List UInt8) (count n : Nat) :
    Prop where
  lt : n < count
  others : OtherNames named wanted n
  named : named n wanted

/-- An entry has no readable name, and a search comes to it. -/
structure IsObstacle (named : Nat → List UInt8 → Prop) (nameless : Nat → Prop)
    (wanted : List UInt8) (count n : Nat) : Prop where
  lt : n < count
  others : OtherNames named wanted n
  nameless : nameless n

section Search

variable {named : Nat → List UInt8 → Prop} {nameless : Nat → Prop} {wanted : List UInt8}
  {count n : Nat}

/-- Entries before one that is reached have other names too. -/
theorem OtherNames.mono {m : Nat} (h : OtherNames named wanted n) (hm : m ≤ n) :
    OtherNames named wanted m :=
  fun i hi ↦ h i (Nat.lt_of_lt_of_le hi hm)

/-- A search among entries that have names or none ends at the first of the wanted name, at one
without a name, or behind the last. -/
theorem search_ends (wanted : List UInt8)
    (h : ∀ i, i < count → (∃ name, named i name) ∨ nameless i) :
    (∃ n, IsFirst named wanted count n) ∨ (∃ n, IsObstacle named nameless wanted count n) ∨
      OtherNames named wanted count := by
  induction count with
  | zero => exact .inr (.inr fun i hi ↦ absurd hi (Nat.not_lt_zero i))
  | succ count ih =>
    rcases ih fun i hi ↦ h i (by omega) with ⟨n, hn⟩ | ⟨n, hn⟩ | hothers
    · exact .inl ⟨n, Nat.lt_succ_of_lt hn.lt, hn.others, hn.named⟩
    · exact .inr (.inl ⟨n, Nat.lt_succ_of_lt hn.lt, hn.others, hn.nameless⟩)
    -- None of the entries before the last one has the name, so that one decides.
    · rcases h count (by omega) with ⟨name, hname⟩ | hnameless
      · by_cases heq : name = wanted
        · subst heq
          exact .inl ⟨count, Nat.lt_succ_self _, hothers, hname⟩
        · refine .inr (.inr fun i hi ↦ ?_)
          rcases Nat.lt_succ_iff_lt_or_eq.mp hi with hi | rfl
          · exact hothers i hi
          · exact ⟨name, hname, heq⟩
      · exact .inr (.inl ⟨count, Nat.lt_succ_self _, hothers, hnameless⟩)

end Search

/-! ### Sections -/

/-- The section of a number has a name. -/
def SectionNamed (bytes : ByteArray) (names : Section) (l : List Section) (n : Nat)
    (name : List UInt8) : Prop :=
  ∃ candidate, l[n]? = some candidate ∧ HasName bytes names candidate.nameIndex name

/-- The section of a number has no name. -/
def SectionNameless (bytes : ByteArray) (names : Section) (l : List Section) (n : Nat) : Prop :=
  ∃ candidate, l[n]? = some candidate ∧ LacksName bytes names candidate.nameIndex

namespace Content

variable {content : Content} {names : Section} {table : Table} {l : List Section} {n : Nat}

private theorem findSection_eq_drop
    (h : OtherNames (SectionNamed content.bytes names l) (Bytes.toList table.name.toUTF8) n) :
    content.findSection names table l = content.findSection names table (l.drop n) := by
  induction n with
  | zero => rw [List.drop_zero]
  | succ n ih =>
    obtain ⟨other, ⟨candidate, hget, hname⟩, hne⟩ := h n (Nat.lt_succ_self n)
    obtain ⟨hlt, rfl⟩ := List.getElem?_eq_some_iff.mp hget
    rw [ih (h.mono (Nat.le_succ n)), List.drop_eq_getElem_cons hlt, findSection_cons,
      nameAt_eq_ok_iff_hasName.mpr hname]
    exact if_neg hne

private theorem findSection_of_isFirst {found : Section} (hfound : l[n]? = some found)
    (h : IsFirst (SectionNamed content.bytes names l) (Bytes.toList table.name.toUTF8) l.length n) :
    content.findSection names table l = .ok found := by
  obtain ⟨candidate, hget, hname⟩ := h.named
  obtain rfl := Option.some.inj (hfound.symm.trans hget)
  obtain ⟨hlt, rfl⟩ := List.getElem?_eq_some_iff.mp hget
  rw [findSection_eq_drop h.others, List.drop_eq_getElem_cons hlt, findSection_cons,
    nameAt_eq_ok_iff_hasName.mpr hname]
  exact if_pos rfl

private theorem findSection_of_isObstacle
    (h : IsObstacle (SectionNamed content.bytes names l) (SectionNameless content.bytes names l)
      (Bytes.toList table.name.toUTF8) l.length n) :
    content.findSection names table l = .error .truncated := by
  obtain ⟨candidate, hget, hlacks⟩ := h.nameless
  obtain ⟨hlt, rfl⟩ := List.getElem?_eq_some_iff.mp hget
  rw [findSection_eq_drop h.others, List.drop_eq_getElem_cons hlt, findSection_cons,
    nameAt_of_lacksName hlacks]
  rfl

private theorem findSection_of_otherNames
    (h : OtherNames (SectionNamed content.bytes names l) (Bytes.toList table.name.toUTF8)
      l.length) :
    content.findSection names table l = .error (.missingSection table) := by
  rw [findSection_eq_drop h, List.drop_length]
  rfl

end Content

/-- How the search for a table among sections ends. -/
inductive Finds (bytes : ByteArray) (names : Section) (l : List Section) (table : Table) :
    Except Error Section → Prop where
  | found {n : Nat} {first : Section} (hget : l[n]? = some first)
      (h : IsFirst (SectionNamed bytes names l) (Bytes.toList table.name.toUTF8) l.length n) :
      Finds bytes names l table (.ok first)
  | unreadable {n : Nat}
      (h : IsObstacle (SectionNamed bytes names l) (SectionNameless bytes names l)
        (Bytes.toList table.name.toUTF8) l.length n) :
      Finds bytes names l table (.error .truncated)
  | missing
      (h : OtherNames (SectionNamed bytes names l) (Bytes.toList table.name.toUTF8) l.length) :
      Finds bytes names l table (.error (.missingSection table))

/-- The search for a table ends as the names of the sections say. -/
theorem Content.findSection_eq_iff {content : Content} {names : Section} {table : Table}
    {l : List Section} {answer : Except Error Section} :
    content.findSection names table l = answer ↔ Finds content.bytes names l table answer := by
  constructor
  · rintro rfl
    have hnames : ∀ i, i < l.length →
        (∃ name, SectionNamed content.bytes names l i name) ∨
          SectionNameless content.bytes names l i := by
      intro i hi
      have hget := List.getElem?_eq_getElem hi
      rcases hasName_or_lacksName content.bytes names l[i].nameIndex with ⟨name, h⟩ | h
      · exact .inl ⟨name, _, hget, h⟩
      · exact .inr ⟨_, hget, h⟩
    rcases search_ends (Bytes.toList table.name.toUTF8) hnames with ⟨n, h⟩ | ⟨n, h⟩ | h
    · have hget := List.getElem?_eq_getElem h.lt
      rw [findSection_of_isFirst hget h]
      exact .found hget h
    · rw [findSection_of_isObstacle h]
      exact .unreadable h
    · rw [findSection_of_otherNames h]
      exact .missing h
  · rintro (⟨hget, h⟩ | h | h)
    · exact findSection_of_isFirst hget h
    · exact findSection_of_isObstacle h
    · exact findSection_of_otherNames h

end BootConfig.Elf
