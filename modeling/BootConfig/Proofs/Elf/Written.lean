import BootConfig.Proofs.Bytes.Shows
import BootConfig.Proofs.Elf.Layout

/-!
# Where the parts of a written image stand

The header, the bodies, the tables and the section headers stand at the offsets that the layout
computes for them, and each name, entry and section header at its place in its table.
-/

namespace BootConfig.Elf

open BootConfig.Bytes (Shows)

/-- What is made of the elements of a list falls into three parts at each of them. -/
theorem flatMap_eq_of_getElem? {α β : Type} {l : List α} {n : Nat} {a : α} (hn : l[n]? = some a)
    (f : α → List β) :
    l.flatMap f = (l.take n).flatMap f ++ f a ++ (l.drop (n + 1)).flatMap f := by
  obtain ⟨hlt, hget⟩ := List.getElem?_eq_some_iff.mp hn
  have hsplit : l = l.take n ++ a :: l.drop (n + 1) := by
    rw [← hget, ← List.drop_eq_getElem_cons hlt, List.take_append_drop]
  calc l.flatMap f = (l.take n ++ a :: l.drop (n + 1)).flatMap f := by rw [← hsplit]
    _ = (l.take n).flatMap f ++ f a ++ (l.drop (n + 1)).flatMap f := by
      rw [List.flatMap_append, List.flatMap_cons, List.append_assoc]

/-! ### Names -/

/-- A section is named after a table exactly if it has the table's name. -/
theorem SectionSource.table?_eq_some_iff (source : SectionSource) (table : Table) :
    source.table? = some table ↔ source.name = table.nameBytes := by
  constructor
  · intro h
    simpa using List.find?_some h
  · intro h
    rw [table?, h]
    cases table <;> decide +kernel

/-- In a table of names, each stands at its index and ends before a zero byte. -/
theorem drop_nameIndex {names : List (List UInt8)} {n : Nat} {name : List UInt8}
    (hn : names[n]? = some name) :
    nameIndex names n + name.length < (nameTable names).length ∧
      ∃ rest, (nameTable names).drop (nameIndex names n) = name ++ 0 :: rest := by
  by_cases hempty : name = []
  · -- The zero byte at the start ends the empty name.
    subst hempty
    rw [nameIndex, if_pos hn]
    exact ⟨by simp [nameTable], _, rfl⟩
  · have hsplit := flatMap_eq_of_getElem? hn terminated
    rw [terminated, if_neg hempty] at hsplit
    have hindex : nameIndex names n = ((names.take n).flatMap terminated).length + 1 := by
      rw [nameIndex, if_neg (by rw [hn]; simpa using hempty), Nat.add_comm]
    rw [hindex, nameTable, hsplit]
    constructor
    · simp only [List.length_cons, List.length_append, List.length_nil]
      omega
    · refine ⟨(names.drop (n + 1)).flatMap terminated, ?_⟩
      rw [List.drop_succ_cons, List.append_assoc, List.drop_left, List.append_assoc]
      rfl

example : nameTable (Layout.sample .big).sectionNames =
    Bytes.toList "\x00.shstrtab\x00.symtab\x00.strtab\x00.data\x00".toUTF8 := by
  decide +kernel

namespace Layout

variable (layout : Layout)

/-! ### Widths -/

private theorem length_half (value : UInt16) : (layout.half value).length = 2 :=
  ByteOrder.length_encode _ _ _

/-- A 32-bit number has four bytes. -/
theorem length_word (value : UInt32) : (layout.word value).length = 4 :=
  ByteOrder.length_encode _ _ _

/-- The fields of the header in order, of which the identification is the first. -/
def headerFields : List (List UInt8) :=
  [magic ++ [class32, encodingByte layout.order, 1, 0, 0, 0, 0, 0, 0, 0, 0, 0], layout.half 2,
    layout.half 3, layout.word 1, layout.word layout.entry, layout.word 0,
    layout.word (.ofNat layout.headersOffset), layout.word 0, layout.half 52, layout.half 0,
    layout.half 0, layout.half 40, layout.half (.ofNat layout.sections.length),
    layout.half (.ofNat (layout.sections.findIdx (·.table? = some .sectionNames)))]

/-- How many bytes the fields of a header have. -/
def headerWidths : List Nat := [16, 2, 2, 4, 4, 4, 4, 4, 2, 2, 2, 2, 2, 2]

/-- Where the field of the header with a given number starts. -/
def headerOffset (n : Nat) : Nat :=
  (headerWidths.take n).foldr (· + ·) 0

private theorem header_eq_flatten : layout.header = layout.headerFields.flatten := by
  simp only [header, headerFields, List.flatten_cons, List.flatten_nil, List.append_nil,
    List.append_assoc]

private theorem map_length_headerFields : layout.headerFields.map List.length = headerWidths := by
  simp only [headerFields, headerWidths, magic, List.map_cons, List.map_nil, List.length_append,
    List.length_cons, List.length_nil, length_half, length_word]

/-- The header has 52 bytes. -/
theorem length_header : layout.header.length = 52 := by
  rw [header_eq_flatten, List.length_flatten, map_length_headerFields]
  rfl

private theorem length_sectionHeader (described : Section) :
    (layout.sectionHeader described).length = 40 := by
  simp only [sectionHeader, List.flatMap_cons, List.flatMap_nil, List.length_append,
    List.length_nil, length_word]

private theorem length_symbolEntry (n : Nat) (source : SymbolSource) :
    (layout.symbolEntry n source).length = 16 := by
  simp only [symbolEntry, List.length_append, List.length_cons, List.length_nil, length_half,
    length_word]

/-- The table of symbols has as many bytes as its entries together. -/
theorem length_tableBytes_symbols :
    (layout.tableBytes .symbols).length = layout.symbols.length * 16 := by
  rw [tableBytes, Bytes.length_flatten_of_width, List.length_mapIdx]
  intro entry hentry
  obtain ⟨n, -, rfl⟩ := List.mem_mapIdx.mp hentry
  exact layout.length_symbolEntry _ _

/-! ### Places -/

private theorem shows_write :
    Shows layout.write 0 (layout.header ++ List.replicate 12 0 ++ layout.data ++
      layout.tableBytes .sectionNames ++ layout.tableBytes .symbolNames ++
      layout.tableBytes .symbols ++ layout.headers) :=
  Bytes.shows_self _

private theorem shows_header : Shows layout.write 0 layout.header :=
  layout.shows_write.left.left.left.left.left.left

/-- Each field of the header stands behind those in front of it. -/
theorem shows_headerField {n : Nat} {field : List UInt8}
    (hn : layout.headerFields[n]? = some field) :
    Shows layout.write (headerOffset n) field := by
  have h := layout.shows_header
  rw [header_eq_flatten] at h
  have hfield := h.flatten hn
  rwa [List.length_flatten, List.map_take, map_length_headerFields, Nat.zero_add] at hfield

private theorem shows_data : Shows layout.write dataOffset layout.data := by
  have h := layout.shows_write.left.left.left.left.right
  rwa [List.length_append, length_header, List.length_replicate] at h

/-- Each table stands at its offset. -/
theorem shows_table (table : Table) :
    Shows layout.write (layout.tableOffset table) (layout.tableBytes table) := by
  cases table with
  | sectionNames =>
    have h := layout.shows_write.left.left.left.right
    rwa [List.length_append, List.length_append, length_header, List.length_replicate,
      Nat.zero_add] at h
  | symbolNames =>
    have h := layout.shows_write.left.left.right
    rwa [List.length_append, List.length_append, List.length_append, length_header,
      List.length_replicate, Nat.zero_add] at h
  | symbols =>
    have h := layout.shows_write.left.right
    rwa [List.length_append, List.length_append, List.length_append, List.length_append,
      length_header, List.length_replicate, Nat.zero_add] at h

private theorem shows_headers : Shows layout.write layout.headersOffset layout.headers := by
  have h := layout.shows_write.right
  rwa [List.length_append, List.length_append, List.length_append, List.length_append,
    List.length_append, length_header, List.length_replicate, Nat.zero_add] at h

/-- Each table ends where the section headers start or before. -/
theorem tableOffset_add_length_le (table : Table) :
    layout.tableOffset table + (layout.tableBytes table).length ≤ layout.headersOffset := by
  cases table <;> simp only [headersOffset, tableOffset] <;> omega

variable {layout} {n : Nat} {source : SectionSource}

private theorem shows_section_data (hn : layout.sections[n]? = some source) :
    Shows layout.write (dataOffset + ((layout.sections.take n).flatMap (·.data)).length)
      source.data := by
  have h := layout.shows_data
  rw [data, List.flatMap_def] at h
  have hpart := h.flatten (n := n) (l := source.data) (by rw [List.getElem?_map, hn]; rfl)
  rwa [← List.map_take, ← List.flatMap_def] at hpart

/-- The body of a section stands at its offset. -/
theorem shows_body (hn : layout.sections[n]? = some source) :
    Shows layout.write (layout.bodyOffset n source) (layout.body source) := by
  have hdata := shows_section_data hn
  rw [bodyOffset, body]
  rw [SectionSource.data] at hdata
  cases ht : source.table? with
  | some table => exact layout.shows_table table
  | none =>
    rw [ht] at hdata
    dsimp only at hdata ⊢
    split
    · next hempty =>
      rw [hempty]
      exact .nil (Nat.zero_le _)
    · exact hdata

/-- The body of a section ends where the section headers start or before. -/
theorem bodyOffset_add_length_le (hn : layout.sections[n]? = some source) :
    layout.bodyOffset n source + (layout.body source).length ≤ layout.headersOffset := by
  rw [bodyOffset, body]
  cases ht : source.table? with
  | some table => exact layout.tableOffset_add_length_le table
  | none =>
    dsimp only
    split
    · next hempty => simp [hempty]
    · have hdata := flatMap_eq_of_getElem? hn (·.data)
      rw [SectionSource.data, ht] at hdata
      simp only [headersOffset, tableOffset, data, hdata, List.length_append]
      omega

/-- The header of a section stands at its number times 40. -/
theorem shows_sectionHeader (hn : layout.sections[n]? = some source) :
    Shows layout.write (layout.headersOffset + n * 40)
      (layout.sectionHeader (layout.describe n source)) := by
  apply layout.shows_headers.flatten_of_width
  · intro part hpart
    obtain ⟨n, -, rfl⟩ := List.mem_mapIdx.mp hpart
    exact layout.length_sectionHeader _
  · rw [List.getElem?_mapIdx, hn]
    rfl

/-- The entry of a symbol stands at its number times 16. -/
theorem shows_symbolEntry {symbol : SymbolSource} (hn : layout.symbols[n]? = some symbol) :
    Shows layout.write (layout.tableOffset .symbols + n * 16) (layout.symbolEntry n symbol) := by
  apply (layout.shows_table .symbols).flatten_of_width
  · intro part hpart
    obtain ⟨n, -, rfl⟩ := List.mem_mapIdx.mp hpart
    exact layout.length_symbolEntry _ _
  · rw [List.getElem?_mapIdx, hn]
    rfl

end Layout

end BootConfig.Elf
