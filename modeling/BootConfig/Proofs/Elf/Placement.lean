import BootConfig.Proofs.Elf.Layout

/-!
# Where a symbol is placed

The address of a symbol alone says where its bytes are: as far behind the start of its section in
the image as the address lies behind that of the section. The step is taken in whole numbers and
never wraps. Where it leads out of range, or starts from no section, the symbol has no place; where
only the end of the symbol lies outside, the image is truncated.
-/

namespace BootConfig.Elf

/-- An address is one of those of a symbol. -/
def Symbol.Occupies (symbol : Symbol) (address : Nat) : Prop :=
  symbol.value.toNat ≤ address ∧ address < symbol.value.toNat + symbol.size.toNat

/-- A position of the image is one of the bytes of a symbol that is placed at an offset. -/
def Symbol.OccupiesFrom (symbol : Symbol) (offset i : Nat) : Prop :=
  offset ≤ i ∧ i < offset + symbol.size.toNat

namespace Image

/-- A symbol has a place: its index stands for a section of the image, it does not start before the
section, and the offset to which its address leads is a 32-bit number. -/
structure Places (image : Image) (symbol : Symbol) (place : Section) (offset : Nat) : Prop where
  index_lt : symbol.sectionIndex.toNat < 0xff00
  getElem?_eq : image.sections[symbol.sectionIndex.toNat]? = some place
  address_le : place.address.toNat ≤ symbol.value.toNat
  offset_eq : (offset : Int) = symbol.value.toNat - place.address.toNat + place.offset.toNat
  offset_lt : offset < UInt32.size

/-- Why a symbol has no place. -/
inductive Misplaces (image : Image) (symbol : Symbol) : Prop where
  | reserved (h : 0xff00 ≤ symbol.sectionIndex.toNat)
  | noSection (h : image.sections.length ≤ symbol.sectionIndex.toNat)
  | before {place : Section} (hget : image.sections[symbol.sectionIndex.toNat]? = some place)
      (h : symbol.value.toNat < place.address.toNat)
  | beyond {place : Section} (hget : image.sections[symbol.sectionIndex.toNat]? = some place)
      (h : (UInt32.size : Int) ≤
        symbol.value.toNat - place.address.toNat + place.offset.toNat)

variable {image : Image} {symbol : Symbol} {place : Section} {offset : Nat} {name : String}

/-- An index stands for a section if it is not reserved and there are as many sections. -/
theorem sectionOf?_eq_some_iff :
    image.sectionOf? symbol = some place ↔
      symbol.sectionIndex.toNat < 0xff00 ∧
        image.sections[symbol.sectionIndex.toNat]? = some place := by
  have hreserved : reservedIndex ≤ symbol.sectionIndex ↔ 0xff00 ≤ symbol.sectionIndex.toNat :=
    UInt16.le_iff_toNat_le
  rw [sectionOf?]
  split
  · next h => simp [Nat.not_lt.mpr (hreserved.mp h)]
  · next h => simp [Nat.lt_of_not_le (mt hreserved.mpr h)]

private theorem places_or_misplaces (image : Image) (symbol : Symbol) :
    (∃ place offset, image.Places symbol place offset) ∨ image.Misplaces symbol := by
  rcases Nat.lt_or_ge symbol.sectionIndex.toNat 0xff00 with hindex | hindex
  · cases hget : image.sections[symbol.sectionIndex.toNat]? with
    | none => exact .inr (.noSection (List.getElem?_eq_none_iff.mp hget))
    | some place =>
      rcases Nat.lt_or_ge symbol.value.toNat place.address.toNat with hbefore | hle
      · exact .inr (.before hget hbefore)
      · by_cases hlt : symbol.value.toNat - place.address.toNat + place.offset.toNat < UInt32.size
        · exact .inl ⟨place, _, hindex, hget, hle, by omega, hlt⟩
        · exact .inr (.beyond hget (by omega))
  · exact .inr (.reserved hindex)

private theorem symbolOffset_of_places (h : image.Places symbol place offset) :
    image.symbolOffset name symbol =
      if offset + symbol.size.toNat ≤ image.bytes.size then .ok offset else .error .truncated := by
  have hle : place.address ≤ symbol.value := UInt32.le_iff_toNat_le.mpr h.address_le
  have hoffset : (symbol.value - place.address).toNat + place.offset.toNat = offset := by
    have heq := h.offset_eq
    have haddress := h.address_le
    rw [UInt32.toNat_sub_of_le _ _ hle]
    omega
  rw [symbolOffset, sectionOf?_eq_some_iff.mpr ⟨h.index_lt, h.getElem?_eq⟩]
  simp only [if_neg (UInt32.not_lt.mpr hle), hoffset, if_neg (Nat.not_le.mpr h.offset_lt),
    Content.slice_map_const]

private theorem symbolOffset_of_misplaces (h : image.Misplaces symbol) :
    image.symbolOffset name symbol = .error (.unplaceableSymbol name) := by
  rw [symbolOffset]
  cases hsection : image.sectionOf? symbol with
  | none => rfl
  | some place =>
    obtain ⟨hindex, hget⟩ := sectionOf?_eq_some_iff.mp hsection
    dsimp only
    split
    · rfl
    · next hlow =>
      have hle : place.address ≤ symbol.value := UInt32.not_lt.mp hlow
      have haddress : place.address.toNat ≤ symbol.value.toNat := UInt32.le_iff_toNat_le.mp hle
      -- The section is there and the symbol does not start before it, so only the offset is left.
      rw [if_pos]
      rw [UInt32.toNat_sub_of_le _ _ hle]
      rcases h with hreserved | hlength | ⟨hother, hbefore⟩ | ⟨hother, hbeyond⟩
      · omega
      · exact absurd (List.getElem?_eq_some_iff.mp hget).1 (Nat.not_lt.mpr hlength)
      · cases hget.symm.trans hother
        omega
      · cases hget.symm.trans hother
        omega

/-- How placing a symbol ends. -/
inductive Locates (image : Image) (name : String) (symbol : Symbol) : Except Error Nat → Prop where
  | placed {place : Section} {offset : Nat} (h : image.Places symbol place offset)
      (hin : offset + symbol.size.toNat ≤ image.bytes.size) : Locates image name symbol (.ok offset)
  | misplaced (h : image.Misplaces symbol) :
      Locates image name symbol (.error (.unplaceableSymbol name))
  | cut {place : Section} {offset : Nat} (h : image.Places symbol place offset)
      (hout : image.bytes.size < offset + symbol.size.toNat) :
      Locates image name symbol (.error .truncated)

/-- Placing a symbol ends as its place says. -/
theorem symbolOffset_eq_iff {answer : Except Error Nat} :
    image.symbolOffset name symbol = answer ↔ image.Locates name symbol answer := by
  constructor
  · rintro rfl
    rcases image.places_or_misplaces symbol with ⟨place, offset, h⟩ | h
    · rw [symbolOffset_of_places h]
      split
      · next hin => exact .placed h hin
      · next hout => exact .cut h (Nat.lt_of_not_le hout)
    · rw [symbolOffset_of_misplaces h]
      exact .misplaced h
  · rintro (⟨h, hin⟩ | h | ⟨h, hout⟩)
    · rw [symbolOffset_of_places h, if_pos hin]
    · exact symbolOffset_of_misplaces h
    · rw [symbolOffset_of_places h, if_neg (Nat.not_le.mpr hout)]

/-! ### Symbols of one section -/

private theorem Places.sub_eq_sub {other : Symbol} {first : Section} {start : Nat}
    (h : image.Places symbol place offset) (hother : image.Places other first start)
    (hindex : symbol.sectionIndex = other.sectionIndex) :
    (start : Int) - offset = other.value.toNat - symbol.value.toNat := by
  have hget := hother.getElem?_eq
  rw [← hindex] at hget
  cases h.getElem?_eq.symm.trans hget
  have hoffset := h.offset_eq
  have hstart := hother.offset_eq
  omega

private theorem Places.exists_occupies {other : Symbol} {first : Section} {start i : Nat}
    (h : image.Places symbol place offset) (hother : image.Places other first start)
    (hindex : symbol.sectionIndex = other.sectionIndex) (hi : symbol.OccupiesFrom offset i)
    (hj : other.OccupiesFrom start i) :
    ∃ address, symbol.Occupies address ∧ other.Occupies address := by
  have hdistance := h.sub_eq_sub hother hindex
  rw [Symbol.OccupiesFrom] at hi hj
  refine ⟨i - offset + symbol.value.toNat, ?_⟩
  rw [Symbol.Occupies, Symbol.Occupies]
  omega

/-- Placing a symbol is exact. It succeeds exactly if the symbol has a place, from which it ends
within the image; it is refused for having no place exactly if it has none, and the image is
truncated exactly if only the end of the symbol lies outside. So two symbols of one section that are
both placed are as far from each other in the image as by address, and share a byte only if they
share an address. -/
theorem placement_exact (image : Image) :
    (∀ name symbol offset, image.symbolOffset name symbol = .ok offset ↔
      ∃ place, image.Places symbol place offset ∧
        offset + symbol.size.toNat ≤ image.bytes.size) ∧
    (∀ name symbol, image.symbolOffset name symbol = .error (.unplaceableSymbol name) ↔
      image.Misplaces symbol) ∧
    (∀ name symbol, image.symbolOffset name symbol = .error .truncated ↔
      ∃ place offset, image.Places symbol place offset ∧
        image.bytes.size < offset + symbol.size.toNat) ∧
    ∀ firstName secondName first second firstOffset secondOffset,
      image.symbolOffset firstName first = .ok firstOffset →
      image.symbolOffset secondName second = .ok secondOffset →
      first.sectionIndex = second.sectionIndex →
      (secondOffset : Int) - firstOffset = second.value.toNat - first.value.toNat ∧
        ((∀ address, first.Occupies address → ¬second.Occupies address) →
          ∀ i, first.OccupiesFrom firstOffset i → ¬second.OccupiesFrom secondOffset i) := by
  refine ⟨?_, ?_, ?_, ?_⟩
  · intro name symbol offset
    rw [symbolOffset_eq_iff]
    constructor
    · rintro (⟨h, hin⟩ | - | -)
      exact ⟨_, h, hin⟩
    · rintro ⟨place, h, hin⟩
      exact .placed h hin
  · intro name symbol
    rw [symbolOffset_eq_iff]
    constructor
    · rintro (- | h | -)
      exact h
    · exact .misplaced
  · intro name symbol
    rw [symbolOffset_eq_iff]
    constructor
    · rintro (- | - | ⟨h, hout⟩)
      exact ⟨_, _, h, hout⟩
    · rintro ⟨place, offset, h, hout⟩
      exact .cut h hout
  · intro firstName secondName first second firstOffset secondOffset hfirst hsecond hindex
    cases symbolOffset_eq_iff.mp hfirst with
    | placed hplaces =>
      cases symbolOffset_eq_iff.mp hsecond with
      | placed hother =>
        refine ⟨hplaces.sub_eq_sub hother hindex, ?_⟩
        intro hapart i hi hj
        obtain ⟨address, hfirst, hsecond⟩ := hplaces.exists_occupies hother hindex hi hj
        exact hapart address hfirst hsecond

/-- In the small image the two symbols of the data have no address in common, so they lie at offsets
as far apart and share no byte. -/
theorem placement_exact_sample :
    ∃ image, Image.parse Layout.sampleBytes = .ok image ∧
      image.symbolOffset "stage_addr" ⟨0x7c00, 4, 4⟩ = .ok 0x40 ∧
      image.symbolOffset "stage_flags" ⟨0x7c04, 1, 4⟩ = .ok 0x44 ∧
      (∀ address, Symbol.Occupies ⟨0x7c00, 4, 4⟩ address →
        ¬Symbol.Occupies ⟨0x7c04, 1, 4⟩ address) ∧
      ∀ i, Symbol.OccupiesFrom ⟨0x7c00, 4, 4⟩ 0x40 i →
        ¬Symbol.OccupiesFrom ⟨0x7c04, 1, 4⟩ 0x44 i := by
  obtain ⟨image, hparse, -⟩ := (Patch.ofBytes_eq_ok_iff _ _ _ _).mp Layout.ofBytes_sample
  have hplaced : (Image.parse Layout.sampleBytes).toOption.all (fun image ↦
      image.symbolOffset "stage_addr" ⟨0x7c00, 4, 4⟩ = .ok 0x40 ∧
        image.symbolOffset "stage_flags" ⟨0x7c04, 1, 4⟩ = .ok 0x44) = true := by
    decide +kernel
  rw [hparse] at hplaced
  simp only [Except.toOption, Option.all_some, decide_eq_true_eq] at hplaced
  obtain ⟨hfirst, hsecond⟩ := hplaced
  have hapart : ∀ address, Symbol.Occupies ⟨0x7c00, 4, 4⟩ address →
      ¬Symbol.Occupies ⟨0x7c04, 1, 4⟩ address := by
    intro address hlow hhigh
    exact absurd hlow.2 (Nat.not_lt.mpr hhigh.1)
  obtain ⟨-, hshare⟩ := (placement_exact image).2.2.2 _ _ _ _ _ _ hfirst hsecond rfl
  exact ⟨image, hparse, hfirst, hsecond, hapart, hshare hapart⟩

end Image

end BootConfig.Elf
