import BootConfig.Proofs.Elf.Written

/-!
# Parsing a written image

What is written from a layout is parsed as an image with the byte order of the layout, the sections
that its headers describe, and the tables at the places where they were written.
-/

namespace BootConfig.Elf

open BootConfig.Bytes (Shows)

/-! ### Reading what stands at a position -/

private theorem mapM_range'_eq_ok {α : Type} {f : Nat → Except Error α} {first : Nat} {l : List α}
    (h : ∀ n a, l[n]? = some a → f (first + n) = .ok a) :
    (List.range' first l.length).mapM f = .ok l := by
  induction l generalizing first with
  | nil => rfl
  | cons a rest ih =>
    have hrest : (List.range' (first + 1) rest.length).mapM f = .ok rest := by
      apply ih
      intro n b hn
      rw [Nat.add_assoc, Nat.add_comm 1 n]
      exact h (n + 1) b hn
    rw [List.length_cons, List.range'_succ, List.mapM_cons]
    exact bind_eq_ok_iff.mpr ⟨a, h 0 a rfl, bind_eq_ok_iff.mpr ⟨rest, hrest, rfl⟩⟩

namespace Content

variable {content : Content} {start : Nat}

private theorem number_of_shows {width value : Nat}
    (h : Shows content.bytes start (content.order.encode width value))
    (hvalue : value < ByteOrder.bound width) : content.number start width = .ok value := by
  have hslice := h.slice?_eq
  rw [ByteOrder.length_encode] at hslice
  rw [number, (slice_eq_ok_iff start width _).mpr hslice, Except.map,
    ByteOrder.decode_encode _ hvalue]

private theorem half_of_shows {value : UInt16}
    (h : Shows content.bytes start (content.order.encode 2 value.toNat)) :
    content.half start = .ok value := by
  rw [half, number_of_shows h value.toNat_lt, Except.map, UInt16.ofNat_toNat]

private theorem word_of_shows {value : UInt32}
    (h : Shows content.bytes start (content.order.encode 4 value.toNat)) :
    content.word start = .ok value := by
  rw [word, number_of_shows h value.toNat_lt, Except.map, UInt32.ofNat_toNat]

private theorem nameAt_of_shows {names : List (List UInt8)} {table : Section}
    (h : Shows content.bytes table.offset.toNat (nameTable names))
    (hsize : table.size.toNat = (nameTable names).length) {n : Nat} {name : List UInt8}
    (hn : names[n]? = some name) (hname : 0 ∉ name) {index : UInt32}
    (hindex : index.toNat = nameIndex names n) : content.nameAt table index = .ok name := by
  obtain ⟨hlt, rest, hdrop⟩ := drop_nameIndex hn
  have hstart := h.drop (n := nameIndex names n) (by omega)
  rw [hdrop] at hstart
  rw [nameAt_eq_ok_iff, hsize, hindex]
  exact ⟨h.le_size, hstart.terminated?_eq hname (by omega)⟩

private theorem exists_findSection {names : Section} {table : Table} {l : List Section}
    (hnames : ∀ candidate ∈ l, ∃ name, content.nameAt names candidate.nameIndex = .ok name)
    (htable : ∃ candidate ∈ l, content.nameAt names candidate.nameIndex = .ok table.nameBytes) :
    ∃ found ∈ l, content.nameAt names found.nameIndex = .ok table.nameBytes ∧
      content.findSection names table l = .ok found := by
  induction l with
  | nil =>
    obtain ⟨candidate, hmem, -⟩ := htable
    cases hmem
  | cons first rest ih =>
    obtain ⟨name, hname⟩ := hnames first List.mem_cons_self
    by_cases heq : name = table.nameBytes
    · subst heq
      refine ⟨first, List.mem_cons_self, hname, ?_⟩
      rw [findSection_cons]
      exact bind_eq_ok_iff.mpr ⟨_, hname, if_pos rfl⟩
    · have hrest : ∃ candidate ∈ rest,
          content.nameAt names candidate.nameIndex = .ok table.nameBytes := by
        obtain ⟨candidate, hmem, hc⟩ := htable
        rcases List.mem_cons.mp hmem with rfl | hmem
        · exact (heq (Except.ok.inj (hname.symm.trans hc))).elim
        · exact ⟨candidate, hmem, hc⟩
      obtain ⟨found, hmem, hfound, hsearch⟩ :=
        ih (fun c hc ↦ hnames c (List.mem_cons_of_mem _ hc)) hrest
      refine ⟨found, List.mem_cons_of_mem _ hmem, hfound, ?_⟩
      rw [findSection_cons]
      exact bind_eq_ok_iff.mpr ⟨name, hname, (if_neg heq).trans hsearch⟩

private theorem sections_of_sectionAt {stride : Nat} {l : List Section}
    (h : ∀ n described, l[n]? = some described →
      content.sectionAt (start + n * stride) = .ok described) :
    content.sections start stride l.length = .ok l := by
  rw [sections, List.range_eq_range']
  apply mapM_range'_eq_ok
  intro n described hn
  rw [Nat.zero_add]
  exact h n described hn

end Content

namespace Layout

/-! ### Reading the sections -/

/-- What is written from a layout, with its byte order. -/
def content (layout : Layout) : Content :=
  ⟨layout.write, layout.order⟩

/-- What the section headers say. -/
def described (layout : Layout) : List Section :=
  layout.sections.mapIdx layout.describe

/-- A section header tells where a table is. -/
structure Locates (layout : Layout) (described : Section) (table : Table) : Prop where
  offset : described.offset.toNat = layout.tableOffset table
  size : described.size.toNat = (layout.tableBytes table).length
  entrySize : described.entrySize = if table = .symbols then 16 else 0

/-- An image is that of a layout. -/
structure IsRead (layout : Layout) (image : Image) : Prop where
  content : image.toContent = layout.content
  sections : image.sections = layout.described
  sectionNames : layout.Locates image.sectionNames .sectionNames
  symbols : layout.Locates image.symbols .symbols
  symbolNames : layout.Locates image.symbolNames .symbolNames

variable {layout : Layout} {n start : Nat} {source : SectionSource}

/-- A 32-bit number is read where it was written. -/
theorem word_content {value : UInt32} (h : Shows layout.write start (layout.word value)) :
    layout.content.word start = .ok value :=
  Content.word_of_shows h

/-- A 16-bit number is read where it was written. -/
theorem half_content {value : UInt16} (h : Shows layout.write start (layout.half value)) :
    layout.content.half start = .ok value :=
  Content.half_of_shows h

private theorem sectionAt_content {described : Section}
    (h : Shows layout.write start (layout.sectionHeader described)) :
    layout.content.sectionAt start = .ok described := by
  rw [sectionHeader, List.flatMap_def] at h
  have hfield (k : Nat) (value : UInt32)
      (hk : [described.nameIndex, 1, 0, described.address, described.offset, described.size, 0, 0,
        1, described.entrySize][k]? = some value) :
      layout.content.word (start + k * 4) = .ok value := by
    apply word_content
    apply h.flatten_of_width
    · intro part hpart
      obtain ⟨value, -, rfl⟩ := List.mem_map.mp hpart
      exact layout.length_word value
    · rw [List.getElem?_map, hk]
      rfl
  exact bind_eq_ok_iff.mpr ⟨_, hfield 0 _ rfl, bind_eq_ok_iff.mpr ⟨_, hfield 3 _ rfl,
    bind_eq_ok_iff.mpr ⟨_, hfield 4 _ rfl, bind_eq_ok_iff.mpr ⟨_, hfield 5 _ rfl,
    bind_eq_ok_iff.mpr ⟨_, hfield 9 _ rfl, rfl⟩⟩⟩⟩⟩

private theorem sections_content :
    layout.content.sections layout.headersOffset 40 layout.sections.length =
      .ok layout.described := by
  have hlen : layout.described.length = layout.sections.length := List.length_mapIdx
  rw [← hlen]
  apply Content.sections_of_sectionAt
  intro n described hn
  rw [Layout.described, List.getElem?_mapIdx, Option.map_eq_some_iff] at hn
  obtain ⟨source, hsource, rfl⟩ := hn
  exact sectionAt_content (shows_sectionHeader hsource)

private theorem ofBytes_write : Content.ofBytes layout.write = .ok layout.content := by
  have hident : Shows layout.write 0
      (magic ++ [class32, encodingByte layout.order, 1, 0, 0, 0, 0, 0, 0, 0, 0, 0]) :=
    layout.shows_headerField (n := 0) rfl
  rw [Content.ofBytes_eq_ok_iff]
  refine ⟨rfl, hident.left.slice?_eq, ?_, ?_⟩
  · exact hident.getElem?_eq (i := 4) (by simp [magic])
  · exact hident.getElem?_eq (i := 5) (by simp [magic])

private theorem Valid.toNat_ofNat (hv : layout.Valid) {value : Nat}
    (h : value ≤ layout.headersOffset) :
    (UInt32.ofNat value).toNat = value := by
  exact UInt32.toNat_ofNat_of_lt' (Nat.lt_of_le_of_lt h hv.headersOffset_lt)

/-- The header of a section tells where its body starts. -/
theorem toNat_describe_offset (hv : layout.Valid) (hn : layout.sections[n]? = some source) :
    (layout.describe n source).offset.toNat = layout.bodyOffset n source := by
  have hle := bodyOffset_add_length_le hn
  exact hv.toNat_ofNat (by omega)

private theorem toNat_describe_size (hv : layout.Valid) (hn : layout.sections[n]? = some source) :
    (layout.describe n source).size.toNat = (layout.body source).length := by
  have hle := bodyOffset_add_length_le hn
  exact hv.toNat_ofNat (by omega)

private theorem locates_describe (hv : layout.Valid) (hn : layout.sections[n]? = some source)
    {table : Table} (hname : source.name = table.nameBytes) :
    layout.Locates (layout.describe n source) table := by
  have ht := (source.table?_eq_some_iff table).mpr hname
  refine ⟨?_, ?_, ?_⟩
  · rw [toNat_describe_offset hv hn, bodyOffset, ht]
  · rw [toNat_describe_size hv hn, body, ht]
  · simp only [describe, ht, Option.some.injEq]

private theorem Valid.toNat_nameIndex (hv : layout.Valid) {table : Table}
    {names : List (List UInt8)}
    (htable : layout.tableBytes table = nameTable names) {name : List UInt8}
    (hn : names[n]? = some name) :
    (UInt32.ofNat (nameIndex names n)).toNat = nameIndex names n := by
  have hlt := (drop_nameIndex hn).1
  have hle := layout.tableOffset_add_length_le table
  rw [htable] at hle
  exact hv.toNat_ofNat (by omega)

/-- A name in one of the tables of names is read by its index. -/
theorem nameAt_content (hv : layout.Valid) {located : Section} {table : Table}
    (hlocated : layout.Locates located table) {names : List (List UInt8)}
    (htable : layout.tableBytes table = nameTable names) {name : List UInt8}
    (hn : names[n]? = some name) (hname : 0 ∉ name) :
    layout.content.nameAt located (.ofNat (nameIndex names n)) = .ok name := by
  apply Content.nameAt_of_shows _ _ hn hname (hv.toNat_nameIndex htable hn)
  · rw [hlocated.offset, ← htable]
    exact layout.shows_table table
  · rw [hlocated.size, htable]

private theorem nameAt_describe (hv : layout.Valid) {names : Section}
    (hnames : layout.Locates names .sectionNames) (hn : layout.sections[n]? = some source) :
    layout.content.nameAt names (layout.describe n source).nameIndex = .ok source.name := by
  apply nameAt_content hv hnames rfl
  · rw [sectionNames, List.getElem?_map, hn]
    rfl
  · exact hv.sectionNames source (List.mem_of_getElem? hn)

private theorem mem_described_iff {described : Section} :
    described ∈ layout.described ↔
      ∃ n source, layout.sections[n]? = some source ∧ layout.describe n source = described := by
  rw [Layout.described, List.mem_iff_getElem?]
  constructor
  · rintro ⟨n, hn⟩
    rw [List.getElem?_mapIdx, Option.map_eq_some_iff] at hn
    obtain ⟨source, hsource, hdescribe⟩ := hn
    exact ⟨n, source, hsource, hdescribe⟩
  · rintro ⟨n, source, hsource, rfl⟩
    exact ⟨n, by rw [List.getElem?_mapIdx, hsource]; rfl⟩

private theorem exists_findSection_described (hv : layout.Valid) {names : Section}
    (hnames : layout.Locates names .sectionNames) (table : Table) :
    ∃ found, layout.content.findSection names table layout.described = .ok found ∧
      layout.Locates found table := by
  obtain ⟨source, hmem, hname⟩ := hv.tables table
  obtain ⟨n, hn⟩ := List.mem_iff_getElem?.mp hmem
  have hread : ∀ candidate ∈ layout.described,
      ∃ name, layout.content.nameAt names candidate.nameIndex = .ok name := by
    intro candidate hc
    obtain ⟨k, other, hk, rfl⟩ := mem_described_iff.mp hc
    exact ⟨other.name, nameAt_describe hv hnames hk⟩
  have hexists : ∃ candidate ∈ layout.described,
      layout.content.nameAt names candidate.nameIndex = .ok table.nameBytes := by
    refine ⟨layout.describe n source, mem_described_iff.mpr ⟨n, source, hn, rfl⟩, ?_⟩
    rw [nameAt_describe hv hnames hn, hname]
  -- An earlier section of the same name may be found; its body is the same table.
  obtain ⟨found, hfound, hnamed, hsearch⟩ := Content.exists_findSection hread hexists
  obtain ⟨k, other, hk, rfl⟩ := mem_described_iff.mp hfound
  refine ⟨_, hsearch, locates_describe hv hk ?_⟩
  exact Except.ok.inj ((nameAt_describe hv hnames hk).symm.trans hnamed)

private theorem exists_sectionNames (hv : layout.Valid) :
    ∃ names, layout.described[(UInt16.ofNat
        (layout.sections.findIdx (·.table? = some .sectionNames))).toNat]? = some names ∧
      layout.Locates names .sectionNames := by
  obtain ⟨source, hmem, hname⟩ := hv.tables .sectionNames
  have hexists : ∃ source ∈ layout.sections,
      decide (source.table? = some .sectionNames) = true :=
    ⟨source, hmem, by simpa using (source.table?_eq_some_iff .sectionNames).mpr hname⟩
  have hlt := List.findIdx_lt_length_of_exists hexists
  have hcount := hv.length_lt
  have hfound := List.findIdx_getElem (w := hlt)
  have hindex : (UInt16.ofNat
      (layout.sections.findIdx (·.table? = some .sectionNames))).toNat =
      layout.sections.findIdx (·.table? = some .sectionNames) :=
    UInt16.toNat_ofNat_of_lt' (Nat.lt_trans hlt hcount)
  have hget := List.getElem?_eq_getElem hlt
  refine ⟨_, ?_, locates_describe hv hget ?_⟩
  · rw [hindex, Layout.described, List.getElem?_mapIdx, hget]
    rfl
  · rw [← SectionSource.table?_eq_some_iff]
    simpa using hfound

/-- What is written from a layout is parsed as an image of the layout. -/
theorem exists_parse_write (hv : layout.Valid) :
    ∃ image, Image.parse layout.write = .ok image ∧ layout.IsRead image := by
  obtain ⟨names, hget, hnames⟩ := exists_sectionNames hv
  obtain ⟨symbols, hsymbols, hlocated⟩ := exists_findSection_described hv hnames .symbols
  obtain ⟨symbolNames, hsymbolNames, hlocated'⟩ :=
    exists_findSection_described hv hnames .symbolNames
  have hstart := hv.toNat_ofNat (Nat.le_refl layout.headersOffset)
  have hcount : (UInt16.ofNat layout.sections.length).toNat = layout.sections.length :=
    UInt16.toNat_ofNat_of_lt' hv.length_lt
  refine ⟨⟨layout.content, layout.described, names, symbols, symbolNames⟩, ?_,
    rfl, rfl, hnames, hlocated, hlocated'⟩
  rw [Image.parse_eq_ok_iff, Image.ofContent_eq_ok_iff]
  refine ⟨ofBytes_write, rfl, _, _, _, _, word_content (layout.shows_headerField (n := 6) rfl),
    half_content (layout.shows_headerField (n := 11) rfl),
    half_content (layout.shows_headerField (n := 12) rfl),
    half_content (layout.shows_headerField (n := 13) rfl), ?_, hget, hsymbols, hsymbolNames⟩
  rw [hstart, hcount]
  exact sections_content

end Layout

end BootConfig.Elf
