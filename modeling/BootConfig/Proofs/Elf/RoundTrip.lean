import BootConfig.Proofs.Elf.ReadBack
import BootConfig.Proofs.Elf.Replace

/-!
# The round trip of an image

What is written from a layout is read back: the byte order, the sections, the first symbol of each
name, and the place of each symbol in the body of its section. A symbol that is set there leaves the
image of the layout with the bytes of the symbol overwritten.
-/

namespace BootConfig.Elf

namespace Layout

/-! ### Symbols -/

/-- The symbol that a name stands for: the first of this name, if it is not defined elsewhere. -/
def lookup (layout : Layout) (name : String) : Except Error Symbol :=
  match layout.symbols.find? fun source ↦ source.name = Bytes.toList name.toUTF8 with
  | none => .error (.symbolNotFound name)
  | some source =>
    if source.symbol.sectionIndex = 0 then .error (.symbolNotFound name) else .ok source.symbol

/-- A symbol lies in the body of a section: its index is that of the section, and its bytes are as
far behind the start of the body as its value is behind the address of the section. -/
structure LiesIn (layout : Layout) (symbol : Symbol) (source : SectionSource) : Prop where
  index_lt : symbol.sectionIndex < reservedIndex
  section_eq : layout.sections[symbol.sectionIndex.toNat]? = some source
  address_le : source.address.toNat ≤ symbol.value.toNat
  end_le : symbol.value.toNat - source.address.toNat + symbol.size.toNat ≤
    (layout.body source).length

/-- Where the bytes of a symbol in the body of a section stand. -/
def position (layout : Layout) (symbol : Symbol) (source : SectionSource) : Nat :=
  layout.bodyOffset symbol.sectionIndex.toNat source +
    (symbol.value.toNat - source.address.toNat)

/-- The bytes of a symbol in the body of a section. -/
def symbolBytes (layout : Layout) (symbol : Symbol) (source : SectionSource) : List UInt8 :=
  ((layout.body source).drop (symbol.value.toNat - source.address.toNat)).take symbol.size.toNat

/-- The patch that stores a value in a symbol in the body of a section. -/
def patch (layout : Layout) (symbol : Symbol) (source : SectionSource) (value : UInt64) : Patch :=
  ⟨layout.position symbol source, layout.order.encode symbol.size.toNat value.toNat⟩

/-- The layout with a value stored in a symbol in the body of a section. -/
def store (layout : Layout) (symbol : Symbol) (source : SectionSource) (value : UInt64) : Layout :=
  layout.replace symbol.sectionIndex.toNat
    (source.overwrite (symbol.value.toNat - source.address.toNat)
      (layout.order.encode symbol.size.toNat value.toNat))

variable {layout : Layout} {image : Image} {n : Nat}

private theorem IsRead.toNat_entrySize (hr : layout.IsRead image) :
    image.symbols.entrySize.toNat = 16 := by
  rw [hr.symbols.entrySize, if_pos rfl]
  rfl

/-- The image has as many symbols as the layout. -/
theorem IsRead.symbolCount (hr : layout.IsRead image) :
    image.symbolCount = layout.symbols.length := by
  have hsize := hr.toNat_entrySize
  have hne : image.symbols.entrySize ≠ 0 := by
    intro h
    rw [h] at hsize
    cases hsize
  rw [Image.symbolCount, if_neg hne, hsize, hr.symbols.size, length_tableBytes_symbols,
    Nat.mul_div_cancel _ (by omega)]

private theorem IsRead.name_of_entry (hv : layout.Valid) (hr : layout.IsRead image)
    {source : SymbolSource} (hn : layout.symbols[n]? = some source) :
    image.word (layout.tableOffset .symbols + n * 16) =
        .ok (.ofNat (nameIndex layout.symbolNames n)) ∧
      image.nameAt image.symbolNames (.ofNat (nameIndex layout.symbolNames n)) =
        .ok source.name := by
  rw [hr.content]
  constructor
  · exact word_content (shows_symbolEntry hn).left.left.left.left
  · apply nameAt_content hv hr.symbolNames rfl
    · rw [Layout.symbolNames, List.getElem?_map, hn]
      rfl
    · exact hv.symbolNames source (List.mem_of_getElem? hn)

/-- The symbol of an entry is read as it was written. -/
theorem IsRead.symbolAt (hr : layout.IsRead image) {source : SymbolSource}
    (hn : layout.symbols[n]? = some source) :
    image.symbolAt (layout.tableOffset .symbols + n * 16) = .ok source.symbol := by
  have hentry := shows_symbolEntry hn
  have hvalue := hentry.left.left.left.right
  have hsize := hentry.left.left.right
  have hindex := hentry.right
  simp only [List.length_append, List.length_cons, List.length_nil, length_word, Nat.zero_add,
    Nat.reduceAdd] at hvalue hsize hindex
  rw [Image.symbolAt, hr.content]
  exact bind_eq_ok_iff.mpr ⟨_, word_content hvalue, bind_eq_ok_iff.mpr ⟨_, word_content hsize,
    bind_eq_ok_iff.mpr ⟨_, half_content hindex, rfl⟩⟩⟩

/-- From each entry on, the search finds the first entry of a name. -/
theorem IsRead.findEntry (hv : layout.Valid) (hr : layout.IsRead image) (name : List UInt8)
    {rest : List SymbolSource} (hrest : layout.symbols.drop n = rest) :
    image.findEntry name rest.length (layout.tableOffset .symbols + n * 16) =
      .ok ((rest.findIdx? fun source ↦ source.name = name).map fun k ↦
        layout.tableOffset .symbols + (n + k) * 16) := by
  -- The entries that are left get fewer while the number of the first of them grows.
  induction rest generalizing n with
  | nil => rfl
  | cons first rest ih =>
    have hfirst : layout.symbols[n]? = some first := by
      rw [← List.head?_drop, hrest, List.head?_cons]
    have hdrop : layout.symbols.drop (n + 1) = rest := by
      rw [← List.tail_drop, hrest, List.tail_cons]
    obtain ⟨hword, hname⟩ := hr.name_of_entry hv hfirst
    rw [List.length_cons, Image.findEntry_succ, List.findIdx?_cons]
    refine bind_eq_ok_iff.mpr ⟨_, hword, bind_eq_ok_iff.mpr ⟨_, hname, ?_⟩⟩
    by_cases heq : first.name = name
    · simp [heq]
    · have hnext := ih hdrop
      rw [Nat.succ_mul, ← Nat.add_assoc] at hnext
      rw [if_neg heq, hr.toNat_entrySize, hnext, if_neg (by simpa using heq), Option.map_map]
      congr 2
      funext k
      simp only [Function.comp_apply]
      omega

/-- A symbol is found as it was written. -/
theorem IsRead.findSymbol (hv : layout.Valid) (hr : layout.IsRead image) (name : String) :
    image.findSymbol name = layout.lookup name := by
  have hsearch := hr.findEntry hv (Bytes.toList name.toUTF8) (n := 0) rfl
  rw [Nat.zero_mul, Nat.add_zero, List.drop_zero, ← hr.symbolCount, ← hr.symbols.offset] at hsearch
  rw [lookup, List.find?_eq_bind_findIdx?_getElem?]
  cases hfound : layout.symbols.findIdx? fun source ↦ source.name = Bytes.toList name.toUTF8 with
  | none =>
    rw [hfound] at hsearch
    exact Image.findSymbol_of_findEntry_none hsearch
  | some k =>
    rw [hfound] at hsearch
    have hlt := (List.findIdx?_eq_some_iff_findIdx_eq.mp hfound).1
    have hget := List.getElem?_eq_getElem hlt
    have hsymbol := hr.symbolAt hget
    rw [← hr.symbols.offset] at hsymbol
    simp only [Option.map_some, Nat.zero_add] at hsearch
    rw [Option.bind_some, hget]
    exact Image.findSymbol_of_findEntry hsearch hsymbol

/-! ### Places -/

/-- The bytes of a symbol in the body of a section stand at their position. -/
theorem LiesIn.shows {symbol : Symbol} {source : SectionSource}
    (h : layout.LiesIn symbol source) :
    Bytes.Shows layout.write (layout.position symbol source)
      (layout.symbolBytes symbol source) := by
  have hend := h.end_le
  exact ((shows_body h.section_eq).drop (by omega)).take _

private theorem LiesIn.length_symbolBytes {symbol : Symbol} {source : SectionSource}
    (h : layout.LiesIn symbol source) :
    (layout.symbolBytes symbol source).length = symbol.size.toNat := by
  have hend := h.end_le
  rw [symbolBytes, List.length_take, List.length_drop]
  omega

/-- A symbol in the body of a section is placed where its bytes stand. -/
theorem IsRead.symbolOffset (hv : layout.Valid) (hr : layout.IsRead image) (name : String)
    {symbol : Symbol} {source : SectionSource} (h : layout.LiesIn symbol source) :
    image.symbolOffset name symbol = .ok (layout.position symbol source) := by
  have hsection : image.sectionOf? symbol =
      some (layout.describe symbol.sectionIndex.toNat source) := by
    rw [Image.sectionOf?, if_neg (by simpa using h.index_lt), hr.sections, described,
      List.getElem?_mapIdx, h.section_eq]
    rfl
  have hin := h.shows.le_size
  have hbody := bodyOffset_add_length_le h.section_eq
  have hheaders := hv.headersOffset_lt
  have hend := h.end_le
  rw [h.length_symbolBytes] at hin
  rw [Image.symbolOffset_eq_ok_iff]
  refine ⟨_, hsection, h.address_le, ?_, ?_, ?_⟩
  · rw [toNat_describe_offset hv h.section_eq, position, Nat.add_comm]
    rfl
  · rw [position]
    omega
  · rw [hr.content]
    exact hin

/-! ### The round trip -/

/-- A symbol that is found in the body of a section is set there if it can store the value. -/
theorem IsRead.ofImage (hv : layout.Valid) (hr : layout.IsRead image) {name : String}
    {value : UInt64} {symbol : Symbol} {source : SectionSource}
    (hlookup : layout.lookup name = .ok symbol) (h : layout.LiesIn symbol source)
    (hmin : 1 ≤ symbol.size.toNat) (hmax : symbol.size.toNat ≤ 8)
    (hfit : value.toNat < ByteOrder.bound symbol.size.toNat) :
    Patch.ofImage image name value = .ok (layout.patch symbol source value) := by
  have horder : image.order = layout.order := congrArg Content.order hr.content
  rw [Patch.ofImage_eq_ok_iff]
  refine ⟨symbol, ?_, ?_, ?_⟩
  · rw [hr.findSymbol hv, hlookup]
  · exact hr.symbolOffset hv name h
  · rw [Image.encode_eq_ok_iff, horder]
    exact ⟨hmin, hmax, hfit, rfl⟩

private theorem LiesIn.apply_patch {symbol : Symbol} {source : SectionSource}
    (h : layout.LiesIn symbol source) (hmin : 1 ≤ symbol.size.toNat) (ht : source.table? = none)
    (value : UInt64) :
    (layout.patch symbol source value).apply layout.write =
      (layout.store symbol source value).write := by
  have hend := h.end_le
  have hbody : layout.body source = source.body := by
    rw [body, ht]
  have hne : source.body ≠ [] := by
    intro hempty
    rw [hbody, hempty, List.length_nil] at hend
    omega
  have hwidth : (layout.patch symbol source value).bytes.length = symbol.size.toNat :=
    ByteOrder.length_encode _ _ _
  apply overwrite_write h.section_eq ht hne
  rw [hwidth, ← hbody]
  exact hend

/-- Reading undoes writing: what is written from a layout is parsed, the first symbol of each name
is found, and each symbol in the body of a section is placed where its bytes stand. If the symbol of
a name can store a value, setting it is writing the layout with the value stored. -/
theorem parse_write (hv : layout.Valid) :
    ∃ image, Image.parse layout.write = .ok image ∧ image.order = layout.order ∧
      image.sections = layout.described ∧
      (∀ name, image.findSymbol name = layout.lookup name) ∧
      (∀ name symbol source, layout.LiesIn symbol source →
        image.symbolOffset name symbol = .ok (layout.position symbol source) ∧
        Bytes.slice? layout.write (layout.position symbol source) symbol.size.toNat =
          some (layout.symbolBytes symbol source)) ∧
      ∀ name value symbol source, layout.lookup name = .ok symbol → layout.LiesIn symbol source →
        1 ≤ symbol.size.toNat → symbol.size.toNat ≤ 8 →
        value.toNat < ByteOrder.bound symbol.size.toNat →
        Patch.ofBytes layout.write name value = .ok (layout.patch symbol source value) ∧
        (source.table? = none → (layout.patch symbol source value).apply layout.write =
          (layout.store symbol source value).write) := by
  obtain ⟨image, hparse, hr⟩ := exists_parse_write hv
  refine ⟨image, hparse, congrArg Content.order hr.content, hr.sections, hr.findSymbol hv, ?_, ?_⟩
  · intro name symbol source h
    have hslice := h.shows.slice?_eq
    rw [h.length_symbolBytes] at hslice
    exact ⟨hr.symbolOffset hv name h, hslice⟩
  · intro name value symbol source hlookup h hmin hmax hfit
    have hpatch := hr.ofImage hv hlookup h hmin hmax hfit
    exact ⟨(Patch.ofBytes_eq_ok_iff _ _ _ _).mpr ⟨image, hparse, hpatch⟩,
      fun ht ↦ h.apply_patch hmin ht value⟩

/-- In the small image, a symbol is found, placed and set in the data, and one that is defined
elsewhere is not found. -/
theorem parse_write_sample :
    (sample .big).Valid ∧
      ∃ image, Image.parse (sample .big).write = .ok image ∧
        image.findSymbol "stage_flags" = .ok ⟨0x7c04, 1, 4⟩ ∧
        image.findSymbol "extern_sym" = .error (.symbolNotFound "extern_sym") ∧
        image.symbolOffset "stage_flags" ⟨0x7c04, 1, 4⟩ = .ok 0x44 ∧
        Patch.ofBytes (sample .big).write "stage_flags" 0xff = .ok ⟨0x44, [0xff]⟩ := by
  obtain ⟨image, hparse, -, -, hfind, hplace, hset⟩ := parse_write (valid_sample .big)
  have hlookup : (sample .big).lookup "stage_flags" = .ok ⟨0x7c04, 1, 4⟩ := by
    decide +kernel
  have hlies : (sample .big).LiesIn ⟨0x7c04, 1, 4⟩
      ⟨Bytes.toList ".data".toUTF8, 0x7c00, List.replicate 8 0xaa⟩ :=
    ⟨by decide, by decide +kernel, by decide, by decide +kernel⟩
  have hposition : (sample .big).position ⟨0x7c04, 1, 4⟩
      ⟨Bytes.toList ".data".toUTF8, 0x7c00, List.replicate 8 0xaa⟩ = 0x44 := by
    decide +kernel
  refine ⟨valid_sample .big, image, hparse, ?_, ?_, ?_, ?_⟩
  · rw [hfind, hlookup]
  · rw [hfind]
    decide +kernel
  · rw [(hplace _ _ _ hlies).1, hposition]
  · rw [(hset _ 0xff _ _ hlookup hlies (by decide) (by decide) (by decide)).1, patch, hposition]
    decide

end Layout

end BootConfig.Elf
