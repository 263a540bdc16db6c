import BootConfig.Proofs.Elf.Reading

/-!
# What finding and placing a symbol depends on

A symbol is found through the entries of the symbol table and the section of their names, and
placed by the sections that were read before. Its own bytes have to be there but are not looked at.
-/

namespace BootConfig.Elf

open BootConfig.Bytes (Retains Covers)

namespace Image

variable {P : Nat → Prop} {image : Image} {bytes : ByteArray}

/-- The positions in question are among others those in which a symbol is looked up: the section
of the names of symbols, and the entry of each symbol. -/
structure CoversSymbols (image : Image) (P : Nat → Prop) : Prop where
  names : Covers P image.symbolNames.offset.toNat image.symbolNames.size.toNat
  entries : ∀ n, n < image.symbolCount →
    Covers P (image.symbols.offset.toNat + n * image.symbols.entrySize.toNat) 16

/-- The search for an entry reads the name of the first one and goes on if it is another. -/
theorem findEntry_succ (name : List UInt8) (count offset : Nat) :
    image.findEntry name (count + 1) offset =
      image.word offset >>= fun index ↦ image.nameAt image.symbolNames index >>= fun entryName ↦
        if entryName = name then .ok (some offset)
        else image.findEntry name count (offset + image.symbols.entrySize.toNat) := by
  rw [findEntry]
  cases image.word offset with
  | error e => rfl
  | ok index =>
    simp only [bind, Except.bind]
    cases image.nameAt image.symbolNames index <;> rfl

private theorem findEntry_same (h : Retains P image.bytes bytes)
    (hnames : Covers P image.symbolNames.offset.toNat image.symbolNames.size.toNat)
    (name : List UInt8) {count offset : Nat}
    (hp : ∀ n, n < count → Covers P (offset + n * image.symbols.entrySize.toNat) 16) :
    SameUnlessTruncated (image.findEntry name count offset)
      ((image.withBytes bytes).findEntry name count offset) := by
  induction count generalizing offset with
  | zero => exact .refl _
  | succ count ih =>
    have hfirst : Covers P offset 4 := (hp 0 (by omega)).mono (by omega) (by omega)
    rw [findEntry_succ, findEntry_succ]
    apply (image.word_same h hfirst).bind
    intro index _
    apply (image.nameAt_same h hnames index).bind
    intro entryName _
    split
    · exact .refl _
    · apply ih
      intro n hn
      have hnext := hp (n + 1) (by omega)
      rwa [Nat.succ_mul, Nat.add_comm (n * _), ← Nat.add_assoc] at hnext

/-- An entry that is found is one of the table. -/
theorem exists_of_findEntry {name : List UInt8} {count offset found : Nat}
    (h : image.findEntry name count offset = .ok (some found)) :
    ∃ n, n < count ∧ found = offset + n * image.symbols.entrySize.toNat := by
  induction count generalizing offset with
  | zero => cases h
  | succ count ih =>
    rw [findEntry] at h
    split at h
    · cases h
    · split at h
      · cases h
        exact ⟨0, by omega, by omega⟩
      · obtain ⟨n, hn, hfound⟩ := ih h
        refine ⟨n + 1, by omega, ?_⟩
        rw [hfound, Nat.succ_mul]
        omega

private theorem symbolAt_same (h : Retains P image.bytes bytes) {offset : Nat}
    (hp : Covers P offset 16) :
    SameUnlessTruncated (image.symbolAt offset) ((image.withBytes bytes).symbolAt offset) := by
  apply (image.word_same h (hp.mono (by omega) (by omega))).bind
  intro value _
  apply (image.word_same h (hp.mono (by omega) (by omega))).bind
  intro size _
  apply (image.half_same h (hp.mono (by omega) (by omega))).bind
  intro sectionIndex _
  exact .refl _

/-- A symbol without an entry of its name is not found. -/
theorem findSymbol_of_findEntry_none {name : String}
    (h : image.findEntry (Bytes.toList name.toUTF8) image.symbolCount
      image.symbols.offset.toNat = .ok none) :
    image.findSymbol name = .error (.symbolNotFound name) := by
  rw [findSymbol, h]
  rfl

/-- The first entry of a name gives its symbol, unless this is defined elsewhere. -/
theorem findSymbol_of_findEntry {name : String} {offset : Nat} {symbol : Symbol}
    (h : image.findEntry (Bytes.toList name.toUTF8) image.symbolCount
      image.symbols.offset.toNat = .ok (some offset))
    (hsymbol : image.symbolAt offset = .ok symbol) :
    image.findSymbol name =
      if symbol.sectionIndex = 0 then .error (.symbolNotFound name) else .ok symbol := by
  rw [findSymbol, h]
  change (image.symbolAt offset >>= fun symbol ↦ _) = _
  rw [hsymbol]
  rfl

/-- Finding a symbol depends on the names of symbols and on their entries. -/
theorem findSymbol_same (h : Retains P image.bytes bytes) (hp : image.CoversSymbols P)
    (name : String) :
    SameUnlessTruncated (image.findSymbol name) ((image.withBytes bytes).findSymbol name) := by
  apply (findEntry_same h hp.names _ hp.entries).bind
  intro found hfound
  cases found with
  | none => exact .refl _
  | some offset =>
    obtain ⟨n, hn, rfl⟩ := exists_of_findEntry hfound
    apply (symbolAt_same h (hp.entries n hn)).bind
    intro symbol _
    exact .refl _

/-- Placing a symbol depends on nothing but the number of bytes. -/
theorem symbolOffset_same (hsize : image.bytes.size ≤ bytes.size) (name : String)
    (symbol : Symbol) :
    SameUnlessTruncated (image.symbolOffset name symbol)
      ((image.withBytes bytes).symbolOffset name symbol) := by
  have hsection : (image.withBytes bytes).sectionOf? symbol = image.sectionOf? symbol := rfl
  have hbytes : (image.withBytes bytes).bytes = bytes := rfl
  rw [symbolOffset, symbolOffset, hsection]
  cases image.sectionOf? symbol with
  | none => exact .refl _
  | some place =>
    simp only [Content.slice_map_const, hbytes]
    split
    · exact .refl _
    · split
      · exact .refl _
      · split
        · rw [if_pos (by omega)]
          exact .refl _
        · exact .truncated _

/-- A symbol is placed as far behind the start of its section as its address lies behind that of
the section, if this is a 32-bit number and the symbol ends within the image. -/
theorem symbolOffset_eq_ok_iff (name : String) (symbol : Symbol) (offset : Nat) :
    image.symbolOffset name symbol = .ok offset ↔
      ∃ place, image.sectionOf? symbol = some place ∧
        place.address.toNat ≤ symbol.value.toNat ∧
        offset = symbol.value.toNat - place.address.toNat + place.offset.toNat ∧
        offset < UInt32.size ∧ offset + symbol.size.toNat ≤ image.bytes.size := by
  rw [symbolOffset]
  cases image.sectionOf? symbol with
  | none => simp
  | some place =>
    simp only [Content.slice_map_const, UInt32.lt_iff_toNat_lt]
    split
    · next hlow => simp; omega
    · next hlow =>
      have hle : place.address ≤ symbol.value := UInt32.le_iff_toNat_le.mpr (by omega)
      simp only [UInt32.toNat_sub_of_le _ _ hle]
      split
      · next hhigh => simp; omega
      · next hhigh =>
        split
        · next hin => simp; omega
        · next hout => simp; omega

end Image

end BootConfig.Elf
