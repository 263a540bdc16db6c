import BootConfig.Proofs.Bytes.Shows
import BootConfig.Proofs.Checked.Run
import BootConfig.Proofs.Elf.Reading

/-!
# Reading an image with numbers of a limited size

The offsets at which an image is read are sums and products of its own numbers. All of them stay
below four times the count of 32-bit numbers, whatever the numbers are, so reading with offsets that
have to stay below that limit or a greater one gives what reading with any offsets does.
-/

namespace BootConfig.Checked

open BootConfig.Elf

variable (limit : Nat)

/-! ### Reading -/

/-- So many bytes at an offset. -/
def slice (content : Content) (offset size : Nat) : Run Error (List UInt8) := do
  let stop ← add limit offset size
  if stop ≤ content.bytes.size then
    return ((Bytes.toList content.bytes).drop offset).take (stop - offset)
  else throw .truncated

/-- The number of so many bytes at an offset. -/
def number (content : Content) (offset size : Nat) : Run Error Nat := do
  load content.order (← slice limit content offset size) size

/-- The 16-bit number at an offset. -/
def half (content : Content) (offset : Nat) : Run Error UInt16 :=
  return .ofNat (← number limit content offset 2)

/-- The 32-bit number at an offset. -/
def word (content : Content) (offset : Nat) : Run Error UInt32 :=
  return .ofNat (← number limit content offset 4)

/-- The 32-bit number so far behind an offset. -/
def field (content : Content) (offset place : Nat) : Run Error UInt32 := do
  word limit content (← add limit offset place)

/-- The section header at an offset. -/
def sectionAt (content : Content) (offset : Nat) : Run Error Section := do
  let nameIndex ← word limit content offset
  let address ← field limit content offset 12
  let start ← field limit content offset 16
  let size ← field limit content offset 20
  let entrySize ← field limit content offset 36
  return ⟨nameIndex, address, start, size, entrySize⟩

/-- The section headers of a table of `count`, one every `stride` bytes. -/
def sections (content : Content) (start stride count : Nat) : Run Error (List Section) :=
  (List.range count).mapM fun n ↦ do
    sectionAt limit content (← add limit start (← mul limit n stride))

/-- The first of some bytes up to a zero byte, which has to be among them. -/
def beforeZero (bytes : List UInt8) : Run Error (List UInt8) :=
  match bytes.findIdx? (· = 0) with
  | none => throw .truncated
  | some length => front bytes length

/-- The name that starts at an index of a section of names and ends before the next zero byte. -/
def nameAt (content : Content) (table : Section) (index : UInt32) : Run Error (List UInt8) := do
  let names ← slice limit content table.offset.toNat table.size.toNat
  if index.toNat ≤ names.length then beforeZero (names.drop index.toNat) else throw .truncated

/-- The first section that holds the given table, by its name among `names`. -/
def findSection (content : Content) (names : Section) (table : Table) :
    List Section → Run Error Section
  | [] => throw (.missingSection table)
  | candidate :: rest => do
    let name ← nameAt limit content names candidate.nameIndex
    if name = Bytes.toList table.name.toUTF8 then return candidate
    else findSection content names table rest

/-- The number of entries of a table; one whose entries have no size has none. -/
def entryCount (table : Section) : Run Error Nat :=
  if table.entrySize = 0 then return 0 else div table.size.toNat table.entrySize.toNat

/-- Reads the bytes of an image. What identifies it are single bytes at fixed positions, for which
nothing is computed. -/
def parse (bytes : ByteArray) : Run Error Image := do
  let content ← ExceptT.mk (pure (Content.ofBytes bytes))
  let start ← word limit content 32
  let stride ← half limit content 46
  let count ← half limit content 48
  let namesIndex ← half limit content 50
  let sections ← sections limit content start.toNat stride.toNat count.toNat
  match sections[namesIndex.toNat]? with
  | none => throw (.missingSection .sectionNames)
  | some sectionNames =>
    let symbols ← findSection limit content sectionNames .symbols sections
    let symbolNames ← findSection limit content sectionNames .symbolNames sections
    -- The number of symbols is told but not kept.
    let _ ← entryCount symbols
    return { content with sections, sectionNames, symbols, symbolNames }

/-! ### What reading gives -/

variable {limit : Nat} {content : Content}

/-- A slice whose end lies below the limit is the one that is read. -/
theorem gives_slice {offset size : Nat} (h : offset + size < limit) :
    (slice limit content offset size).Gives (content.slice offset size) := by
  apply (gives_add h).bind_ok
  rw [Content.slice, Bytes.slice?_eq, Nat.add_sub_cancel_left]
  split
  · exact .result _
  · exact .failure _

private theorem gives_number {offset size : Nat} (h : offset + size < limit) :
    (number limit content offset size).Gives (content.number offset size) := by
  apply (gives_slice h).bind_map
  intro bytes hbytes
  rw [Content.slice_eq_ok_iff, Bytes.slice?_eq_some_iff] at hbytes
  obtain ⟨-, rfl, -⟩ := hbytes
  exact gives_load content.order bytes

/-- A 16-bit number whose bytes end below the limit is the one that is read. -/
theorem gives_half {offset : Nat} (h : offset + 2 < limit) :
    (half limit content offset).Gives (content.half offset) :=
  (gives_number h).bind_map fun _ _ ↦ .result _

/-- A 32-bit number whose bytes end below the limit is the one that is read. -/
theorem gives_word {offset : Nat} (h : offset + 4 < limit) :
    (word limit content offset).Gives (content.word offset) :=
  (gives_number h).bind_map fun _ _ ↦ .result _

/-- A 32-bit number behind an offset whose bytes end below the limit is the one that is read. -/
theorem gives_field {offset place : Nat} (h : offset + place + 4 < limit) :
    (field limit content offset place).Gives (content.word (offset + place)) :=
  (gives_add (by omega)).bind_ok (gives_word h)

private theorem gives_sectionAt {offset : Nat} (h : offset + 40 < limit) :
    (sectionAt limit content offset).Gives (content.sectionAt offset) := by
  apply (gives_word (by omega)).bind
  intro nameIndex _
  apply (gives_field (by omega)).bind
  intro address _
  apply (gives_field (by omega)).bind
  intro start _
  apply (gives_field (by omega)).bind
  intro size _
  apply (gives_field (by omega)).bind
  intro entrySize _
  exact .result _

private theorem gives_sections {start stride count : Nat}
    (h : ∀ n, n < count → start + n * stride + 40 < limit) :
    (sections limit content start stride count).Gives (content.sections start stride count) := by
  apply Run.gives_mapM
  intro n hn
  have hend := h n (List.mem_range.mp hn)
  apply (gives_mul (by omega)).bind_ok
  apply (gives_add (by omega)).bind_ok
  exact gives_sectionAt hend

private theorem gives_beforeZero {bytes : ByteArray} {start : Nat} {l : List UInt8}
    (h : Bytes.Shows bytes start l) :
    (beforeZero l).Gives
      ((Bytes.terminated? bytes start l.length).elim (.error .truncated) .ok) := by
  rw [h.terminated?_eq_findIdx?, beforeZero]
  cases hfind : l.findIdx? (· = 0) with
  | none => exact .failure _
  | some length =>
    have hlt := (List.findIdx?_eq_some_iff_findIdx_eq.mp hfind).1
    exact gives_front (Nat.le_of_lt hlt)

/-- A name of a section of names that ends below the limit is the one that is read. -/
theorem gives_nameAt {table : Section} (h : table.offset.toNat + table.size.toNat < limit)
    (index : UInt32) :
    (nameAt limit content table index).Gives (content.nameAt table index) := by
  rw [Content.nameAt_eq_bind]
  apply (gives_slice h).bind
  intro names hnames
  rw [Content.slice_eq_ok_iff] at hnames
  have hshows := Bytes.Shows.of_slice? hnames
  obtain ⟨-, hlen, -⟩ := (Bytes.slice?_eq_some_iff _ _ _ _).mp hnames
  rw [← hlen]
  split
  · next hindex =>
    rw [← List.length_drop]
    exact gives_beforeZero (hshows.drop hindex)
  · next hindex =>
    rw [Nat.sub_eq_zero_of_le (Nat.le_of_not_le hindex)]
    exact .failure _

private theorem gives_findSection {names : Section}
    (h : names.offset.toNat + names.size.toNat < limit)
    (table : Table) (l : List Section) :
    (findSection limit content names table l).Gives (content.findSection names table l) := by
  induction l with
  | nil => exact .failure _
  | cons candidate rest ih =>
    rw [Content.findSection_cons]
    apply (gives_nameAt h candidate.nameIndex).bind
    intro name _
    split
    · exact .result candidate
    · exact ih

/-- The number of entries of a table is found without a division by zero. -/
theorem gives_entryCount (table : Section) :
    (entryCount table).Gives
      (.ok (if table.entrySize = 0 then 0 else table.size.toNat / table.entrySize.toNat)) := by
  rw [entryCount]
  split
  · exact .result _
  · next h => exact gives_div fun hzero ↦ h (UInt32.toNat_inj.mp hzero)

/-! ### Limits that suffice -/

/-- With a limit of four times the count of 32-bit numbers, sections end below it. -/
theorem end_lt (h : 4 * UInt32.size ≤ limit) (table : Section) :
    table.offset.toNat + table.size.toNat < limit := by
  have hoffset := table.offset.toNat_lt
  have hsize := table.size.toNat_lt
  rw [UInt32.size] at h
  omega

private theorem header_lt (h : 4 * UInt32.size ≤ limit) (start : UInt32) (stride count : UInt16)
    {n : Nat}
    (hn : n < count.toNat) : start.toNat + n * stride.toNat + 40 < limit := by
  have hstart := start.toNat_lt
  have hproduct : n * stride.toNat ≤ 65535 * 65535 :=
    Nat.mul_le_mul (by have := count.toNat_lt; omega) (by have := stride.toNat_lt; omega)
  rw [UInt32.size] at h
  omega

/-- With such a limit, the image that is parsed is the one that bytes are. -/
theorem gives_parse (h : 4 * UInt32.size ≤ limit) (bytes : ByteArray) :
    (parse limit bytes).Gives (Image.parse bytes) := by
  have hreach : 52 < limit := by
    rw [UInt32.size] at h
    omega
  have hid : Run.Gives (ExceptT.mk (pure (Content.ofBytes bytes))) (Content.ofBytes bytes) := rfl
  apply hid.bind
  intro content _
  apply (gives_word (by omega)).bind
  intro start _
  apply (gives_half (by omega)).bind
  intro stride _
  apply (gives_half (by omega)).bind
  intro count _
  apply (gives_half (by omega)).bind
  intro namesIndex _
  apply (gives_sections fun n hn ↦ header_lt h start stride count hn).bind
  intro sections _
  cases sections[namesIndex.toNat]? with
  | none => exact .failure _
  | some sectionNames =>
    apply (gives_findSection (end_lt h sectionNames) .symbols sections).bind
    intro symbols _
    apply (gives_findSection (end_lt h sectionNames) .symbolNames sections).bind
    intro symbolNames _
    apply (gives_entryCount symbols).bind_ok
    exact .result _

end BootConfig.Checked
