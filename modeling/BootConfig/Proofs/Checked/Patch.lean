import BootConfig.Proofs.Checked.Image
import BootConfig.Proofs.Elf.Encoding
import BootConfig.Proofs.Elf.Entries

/-!
# Patching with numbers of a limited size

A symbol is found, placed and set with offsets that have to stay below a limit, words that are
subtracted and added only within their range, and bytes that are only put in the place of as many.
None of this ends in a fault, whatever the bytes of the image are.
-/

namespace BootConfig.Checked

open BootConfig.Elf

/-! ### Words -/

/-- The difference of two 32-bit numbers, if it is one. -/
def sub? (a b : UInt32) : Option UInt32 :=
  if b ≤ a then some (a - b) else none

/-- The sum of two 32-bit numbers, if it is one. -/
def add? (a b : UInt32) : Option UInt32 :=
  if a.toNat + b.toNat < UInt32.size then some (a + b) else none

variable (limit : Nat)

/-! ### Finding, placing and setting a symbol -/

/-- Where the first entry with the given name starts, of so many entries behind those before a
number, if there is one. -/
def findEntry (image : Image) (name : List UInt8) : Nat → Nat → Run Error (Option Nat)
  | 0, _ => return none
  | count + 1, n => do
    let distance ← mul limit n image.symbols.entrySize.toNat
    let offset ← add limit image.symbols.offset.toNat distance
    let index ← word limit image.toContent offset
    let entryName ← nameAt limit image.toContent image.symbolNames index
    if entryName = name then return some offset else findEntry image name count (n + 1)

/-- The symbol whose entry starts at an offset. -/
def symbolAt (image : Image) (offset : Nat) : Run Error Symbol := do
  let value ← field limit image.toContent offset 4
  let size ← field limit image.toContent offset 8
  let sectionIndex ← half limit image.toContent (← add limit offset 14)
  return ⟨value, size, sectionIndex⟩

/-- The symbol of a name. -/
def findSymbol (image : Image) (name : String) : Run Error Symbol := do
  let count ← entryCount image.symbols
  match ← findEntry limit image (Bytes.toList name.toUTF8) count 0 with
  | none => throw (.symbolNotFound name)
  | some offset =>
    let symbol ← symbolAt limit image offset
    if symbol.sectionIndex = 0 then throw (.symbolNotFound name) else return symbol

/-- The offset in the image at which the bytes of a symbol start. -/
def symbolOffset (image : Image) (name : String) (symbol : Symbol) : Run Error Nat :=
  match image.sectionOf? symbol with
  | none => throw (.unplaceableSymbol name)
  | some place =>
    match (sub? symbol.value place.address).bind (add? · place.offset) with
    | none => throw (.unplaceableSymbol name)
    | some offset => do
      let _ ← slice limit image.toContent offset.toNat symbol.size.toNat
      return offset.toNat

/-- The bytes of an image in which the symbol of a name has a value, and the patch that was made. -/
def patch (bytes : ByteArray) (name : String) (value : UInt64) : Run Error (ByteArray × Patch) := do
  let image ← parse limit bytes
  let symbol ← findSymbol limit image name
  let offset ← symbolOffset limit image name symbol
  let new ← encode image name symbol value
  let stop ← add limit offset new.length
  let patched ← replace bytes offset stop new
  return (patched, ⟨offset, new⟩)

/-! ### What finding, placing and setting give -/

variable {limit : Nat} {image : Image}

private theorem entry_lt (h : 4 * UInt32.size ≤ limit) {n : Nat} (hn : n < image.symbolCount) :
    image.entryOffset n + 16 < limit := by
  have hoffset := image.symbols.offset.toNat_lt
  have hsize := image.symbols.size.toNat_lt
  have hproduct : n * image.symbols.entrySize.toNat ≤ image.symbols.size.toNat := by
    rw [Image.symbolCount] at hn
    split at hn
    · exact absurd hn (Nat.not_lt_zero n)
    · exact Nat.mul_le_of_le_div _ _ _ (Nat.le_of_lt hn)
  rw [UInt32.size] at h
  rw [Image.entryOffset]
  omega

private theorem gives_findEntry (h : 4 * UInt32.size ≤ limit) (name : List UInt8) {count n : Nat}
    (hcount : n + count ≤ image.symbolCount) :
    (findEntry limit image name count n).Gives
      (image.findEntry name count (image.entryOffset n)) := by
  induction count generalizing n with
  | zero => exact .result none
  | succ count ih =>
    have hlt : n < image.symbolCount := by omega
    have hend := entry_lt h hlt
    have hoffset : image.entryOffset n =
        image.symbols.offset.toNat + n * image.symbols.entrySize.toNat := rfl
    rw [Image.findEntry_succ, ← Image.entryOffset_succ]
    apply (gives_mul (by omega)).bind_ok
    apply (gives_add (by omega)).bind_ok
    apply (gives_word (by omega)).bind
    intro index _
    apply (gives_nameAt (end_lt h image.symbolNames) index).bind
    intro entryName _
    split
    · exact .result _
    · exact ih (by omega)

private theorem gives_symbolAt {offset : Nat} (h : offset + 16 < limit) :
    (symbolAt limit image offset).Gives (image.symbolAt offset) := by
  apply (gives_field (by omega)).bind
  intro value _
  apply (gives_field (by omega)).bind
  intro size _
  apply (gives_add (by omega)).bind_ok
  apply (gives_half (by omega)).bind
  intro sectionIndex _
  exact .result _

/-- With a limit of four times the count of 32-bit numbers, the symbol of a name is the one that is
found. -/
theorem gives_findSymbol (h : 4 * UInt32.size ≤ limit) (image : Image) (name : String) :
    (findSymbol limit image name).Gives (image.findSymbol name) := by
  apply (gives_entryCount image.symbols).bind_ok
  have hcount : 0 + image.symbolCount ≤ image.symbolCount := by omega
  have hfind := gives_findEntry h (Bytes.toList name.toUTF8) hcount
  rw [Image.entryOffset_zero] at hfind
  apply hfind.bind
  intro found hfound
  cases found with
  | none => exact .failure _
  | some offset =>
    obtain ⟨n, hn, rfl⟩ := Image.exists_of_findEntry hfound
    apply (gives_symbolAt (entry_lt h hn)).bind
    intro symbol _
    split
    · exact .failure _
    · exact .result symbol

private theorem bind_sub?_add? (value address start : UInt32) :
    (sub? value address).bind (add? · start) =
      if value < address then none
      else if UInt32.size ≤ (value - address).toNat + start.toNat then none
      else some (value - address + start) := by
  rw [sub?]
  by_cases hlow : value < address
  · rw [if_neg (UInt32.not_le.mpr hlow), if_pos hlow]
    rfl
  · rw [if_pos (UInt32.not_lt.mp hlow), if_neg hlow, Option.bind_some, add?]
    by_cases hhigh : UInt32.size ≤ (value - address).toNat + start.toNat
    · rw [if_neg (Nat.not_lt.mpr hhigh), if_pos hhigh]
    · rw [if_pos (Nat.lt_of_not_le hhigh), if_neg hhigh]

/-- With such a limit, a symbol is placed where it is. -/
theorem gives_symbolOffset (h : 4 * UInt32.size ≤ limit) (image : Image) (name : String)
    (symbol : Symbol) :
    (symbolOffset limit image name symbol).Gives (image.symbolOffset name symbol) := by
  rw [symbolOffset, Image.symbolOffset]
  cases image.sectionOf? symbol with
  | none => exact .failure _
  | some place =>
    dsimp only
    rw [bind_sub?_add?]
    by_cases hlow : symbol.value < place.address
    · rw [if_pos hlow, if_pos hlow]
      exact .failure _
    rw [if_neg hlow, if_neg hlow]
    by_cases hhigh : UInt32.size ≤ (symbol.value - place.address).toNat + place.offset.toNat
    · rw [if_pos hhigh, if_pos hhigh]
      exact .failure _
    rw [if_neg hhigh, if_neg hhigh]
    have hsum : (symbol.value - place.address + place.offset).toNat =
        (symbol.value - place.address).toNat + place.offset.toNat := by
      rw [UInt32.toNat_add]
      exact Nat.mod_eq_of_lt (Nat.lt_of_not_le hhigh)
    have hsize := symbol.size.toNat_lt
    rw [UInt32.size] at h hhigh
    dsimp only
    rw [hsum]
    exact (gives_slice (by omega)).bind_map fun _ _ ↦ .result _

/-- With such a limit, the patch of a symbol is the one that is found for it, and it is applied. -/
theorem gives_patch (h : 4 * UInt32.size ≤ limit) (bytes : ByteArray) (name : String)
    (value : UInt64) :
    (patch limit bytes name value).Gives
      ((Patch.ofBytes bytes name value).map fun patch ↦ (patch.apply bytes, patch)) := by
  rw [Patch.ofBytes, map_bind_eq]
  apply (gives_parse h bytes).bind
  intro image hparse
  rw [Patch.ofImage, map_bind_eq]
  apply (gives_findSymbol h image name).bind
  intro symbol _
  rw [map_bind_eq]
  apply (gives_symbolOffset h image name symbol).bind
  intro offset hplace
  rw [map_bind_eq]
  apply (gives_encode image name symbol value).bind
  intro new hencode
  obtain ⟨-, -, -, -, hlt, hin⟩ := (image.symbolOffset_eq_ok_iff name symbol offset).mp hplace
  obtain ⟨-, height, -, -⟩ := (image.encode_eq_ok_iff name symbol value new).mp hencode
  -- What is put into the image has the size of the symbol, which was found to lie in it.
  have hlen := Patch.length_bytes hencode
  rw [Image.bytes_of_parse hparse, ← hlen] at hin
  rw [UInt32.size] at h hlt
  apply (gives_add (by omega)).bind_ok
  apply (gives_replace hin).bind_ok
  exact .result _

/-- Whatever bytes an image has, all offsets at which it is read and patched stay below four times the
count of 32-bit numbers, so they take 34 bits at most. With a limit of that or more, patching ends in
no fault: no sum or product reaches the limit, nothing is divided by zero or shifted by too many
bits, and as many bytes are put into the image as it has there. The same holds of the questions about
an image and any symbol, and all answers are those without a limit. -/
theorem patching_never_faults {limit : Nat} (h : 4 * UInt32.size ≤ limit) :
    (∀ bytes name value, (patch limit bytes name value).Gives
      ((Patch.ofBytes bytes name value).map fun patch ↦ (patch.apply bytes, patch))) ∧
    (∀ bytes, (parse limit bytes).Gives (Image.parse bytes)) ∧
    ∀ (image : Image) (name : String),
      (findSymbol limit image name).Gives (image.findSymbol name) ∧
      ∀ symbol, (symbolOffset limit image name symbol).Gives (image.symbolOffset name symbol) ∧
        ∀ value, (encode image name symbol value).Gives (image.encode name symbol value) := by
  refine ⟨gives_patch h, gives_parse h, ?_⟩
  intro image name
  refine ⟨gives_findSymbol h image name, ?_⟩
  intro symbol
  exact ⟨gives_symbolOffset h image name symbol, gives_encode image name symbol⟩

/-- With the least such limit, and with offsets of 64 bits, the first symbol of the small image is
set. -/
theorem patching_never_faults_sample :
    4 * UInt32.size ≤ UInt64.size ∧
    (patch (4 * UInt32.size) Layout.sampleBytes "stage_addr" 0x12345678).Gives
      (.ok (Layout.samplePatch.apply Layout.sampleBytes, Layout.samplePatch)) ∧
    (patch UInt64.size Layout.sampleBytes "stage_addr" 0x12345678).Gives
      (.ok (Layout.samplePatch.apply Layout.sampleBytes, Layout.samplePatch)) := by
  have hwide : 4 * UInt32.size ≤ UInt64.size := by decide
  obtain ⟨hleast, -⟩ := patching_never_faults (Nat.le_refl (4 * UInt32.size))
  obtain ⟨hword, -⟩ := patching_never_faults hwide
  have hleast := hleast Layout.sampleBytes Layout.sampleSetting.name Layout.sampleSetting.value
  have hword := hword Layout.sampleBytes Layout.sampleSetting.name Layout.sampleSetting.value
  rw [Layout.ofBytes_sample] at hleast hword
  exact ⟨hwide, hleast, hword⟩

end BootConfig.Checked
