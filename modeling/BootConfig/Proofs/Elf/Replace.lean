import BootConfig.Proofs.Elf.Written

/-!
# Replacing the body of a section

Another body of the same length changes nothing in a written image but the bytes of the body.
Overwriting a part of the body in the image is writing the layout with this part overwritten.
-/

namespace BootConfig.Elf

private theorem set_of_getElem? {α : Type} {l : List α} {n : Nat} {a : α} (hn : l[n]? = some a) :
    l.set n a = l := by
  obtain ⟨hlt, rfl⟩ := List.getElem?_eq_some_iff.mp hn
  exact List.set_getElem_self hlt

private theorem map_set_of_eq {α β : Type} {l : List α} {n : Nat} {a b : α} (hn : l[n]? = some a)
    {f : α → β} (h : f b = f a) : (l.set n b).map f = l.map f := by
  rw [List.map_set, h, set_of_getElem? (by rw [List.getElem?_map, hn]; rfl)]

/-- A section like another one up to the bytes of its body. -/
structure SectionSource.SameShape (source other : SectionSource) : Prop where
  name : other.name = source.name
  address : other.address = source.address
  length_body : other.body.length = source.body.length

namespace SectionSource.SameShape

variable {source other : SectionSource}

private theorem table?_eq (h : source.SameShape other) : other.table? = source.table? := by
  rw [table?, table?, h.name]

private theorem length_data (h : source.SameShape other) :
    other.data.length = source.data.length := by
  rw [data, data, h.table?_eq]
  cases source.table? with
  | some table => rfl
  | none => exact h.length_body

end SectionSource.SameShape

/-- The section with some bytes of its body overwritten. -/
def SectionSource.overwrite (source : SectionSource) (start : Nat) (new : List UInt8) :
    SectionSource :=
  { source with body := source.body.take start ++ new ++ source.body.drop (start + new.length) }

private theorem SectionSource.sameShape_overwrite (source : SectionSource) {start : Nat}
    {new : List UInt8}
    (h : start + new.length ≤ source.body.length) :
    source.SameShape (source.overwrite start new) := by
  refine ⟨rfl, rfl, ?_⟩
  simp only [overwrite, List.length_append, List.length_take, List.length_drop]
  omega

namespace Layout

/-- The layout with another section in the place of that with a given number. -/
def replace (layout : Layout) (n : Nat) (other : SectionSource) : Layout :=
  { layout with sections := layout.sections.set n other }

variable {layout : Layout} {n : Nat} {source other : SectionSource}

private theorem length_sections_replace (layout : Layout) (n : Nat) (other : SectionSource) :
    (layout.replace n other).sections.length = layout.sections.length :=
  List.length_set

private theorem tableBytes_replace (hn : layout.sections[n]? = some source)
    (h : source.SameShape other)
    (table : Table) : (layout.replace n other).tableBytes table = layout.tableBytes table := by
  cases table with
  | sectionNames =>
    have hnames : (layout.replace n other).sectionNames = layout.sectionNames :=
      map_set_of_eq hn h.name
    rw [tableBytes, tableBytes, hnames]
  | symbols => rfl
  | symbolNames => rfl

private theorem length_data_replace (hn : layout.sections[n]? = some source)
    (h : source.SameShape other)
    (k : Nat) :
    (((layout.replace n other).sections.take k).flatMap (·.data)).length =
      ((layout.sections.take k).flatMap (·.data)).length := by
  have hlengths : (layout.sections.set n other).map (·.data.length) =
      layout.sections.map (·.data.length) :=
    map_set_of_eq hn h.length_data
  rw [List.length_flatMap, List.length_flatMap, List.map_take, List.map_take]
  exact congrArg (fun l ↦ (l.take k).sum) hlengths

private theorem tableOffset_replace (hn : layout.sections[n]? = some source)
    (h : source.SameShape other)
    (table : Table) : (layout.replace n other).tableOffset table = layout.tableOffset table := by
  have hdata : (layout.replace n other).data.length = layout.data.length := by
    have hall := length_data_replace hn h layout.sections.length
    rwa [List.take_length, ← layout.length_sections_replace n other, List.take_length] at hall
  cases table <;> simp only [tableOffset, hdata, tableBytes_replace hn h]

private theorem headersOffset_replace (hn : layout.sections[n]? = some source)
    (h : source.SameShape other) :
    (layout.replace n other).headersOffset = layout.headersOffset := by
  rw [headersOffset, headersOffset, tableOffset_replace hn h, tableBytes_replace hn h]

private theorem header_replace (hn : layout.sections[n]? = some source)
    (h : source.SameShape other) :
    (layout.replace n other).header = layout.header := by
  have htables : (layout.sections.set n other).map (·.table?) = layout.sections.map (·.table?) :=
    map_set_of_eq hn h.table?_eq
  have hindex : (layout.replace n other).sections.findIdx (·.table? = some .sectionNames) =
      layout.sections.findIdx (·.table? = some .sectionNames) := by
    have hfind := congrArg (List.findIdx fun table? ↦ table? = some .sectionNames) htables
    rwa [List.findIdx_map, List.findIdx_map] at hfind
  rw [header, header, headersOffset_replace hn h, length_sections_replace, hindex]
  rfl

private theorem describe_replace (hn : layout.sections[n]? = some source)
    (h : source.SameShape other)
    (k : Nat) (described : SectionSource) :
    (layout.replace n other).describe k described = layout.describe k described := by
  have hnames : (layout.replace n other).sectionNames = layout.sectionNames :=
    map_set_of_eq hn h.name
  have hoffset : (layout.replace n other).bodyOffset k described =
      layout.bodyOffset k described := by
    rw [bodyOffset, bodyOffset, length_data_replace hn h]
    cases described.table? with
    | some table => exact tableOffset_replace hn h table
    | none => rfl
  have hbody : (layout.replace n other).body described = layout.body described := by
    rw [body, body]
    cases described.table? with
    | some table => exact tableBytes_replace hn h table
    | none => rfl
  rw [describe, describe, hnames, hoffset, hbody]

private theorem describe_of_sameShape (h : source.SameShape other) (k : Nat) :
    layout.describe k other = layout.describe k source := by
  have hempty : other.body = [] ↔ source.body = [] := by
    rw [← List.length_eq_zero_iff, h.length_body, List.length_eq_zero_iff]
  have hoffset : layout.bodyOffset k other = layout.bodyOffset k source := by
    rw [bodyOffset, bodyOffset, h.table?_eq]
    simp only [hempty]
  have hbody : (layout.body other).length = (layout.body source).length := by
    rw [body, body, h.table?_eq]
    cases source.table? with
    | some table => rfl
    | none => exact h.length_body
  rw [describe, describe, hoffset, hbody, h.address, h.table?_eq]

private theorem headers_replace (hn : layout.sections[n]? = some source)
    (h : source.SameShape other) :
    (layout.replace n other).headers = layout.headers := by
  have hall : (fun k described ↦ (layout.replace n other).sectionHeader
        ((layout.replace n other).describe k described)) =
      fun k described ↦ layout.sectionHeader (layout.describe k described) := by
    funext k described
    rw [describe_replace hn h]
    rfl
  have hget : (layout.sections.mapIdx fun k described ↦
      layout.sectionHeader (layout.describe k described))[n]? =
        some (layout.sectionHeader (layout.describe n source)) := by
    rw [List.getElem?_mapIdx, hn]
    rfl
  rw [headers, headers, hall, replace, List.mapIdx_set, describe_of_sameShape h,
    set_of_getElem? hget]

/-! ### Overwriting in a body -/

/-- What stands before the body of the section with a given number. -/
def before (layout : Layout) (n : Nat) : List UInt8 :=
  layout.header ++ List.replicate 12 0 ++ (layout.sections.take n).flatMap fun source ↦ source.data

/-- What stands behind the body of the section with a given number. -/
def behind (layout : Layout) (n : Nat) : List UInt8 :=
  ((layout.sections.drop (n + 1)).flatMap fun source ↦ source.data) ++
    layout.tableBytes .sectionNames ++ layout.tableBytes .symbolNames ++
    layout.tableBytes .symbols ++ layout.headers

private theorem toList_write (hn : layout.sections[n]? = some source) :
    Bytes.toList layout.write = layout.before n ++ source.data ++ layout.behind n := by
  rw [write, Bytes.toList, data, flatMap_eq_of_getElem? hn, before, behind]
  simp only [List.append_assoc]

private theorem length_before (ht : source.table? = none) (hne : source.body ≠ []) :
    (layout.before n).length = layout.bodyOffset n source := by
  simp only [before, bodyOffset, ht, if_neg hne, List.length_append, length_header,
    List.length_replicate, dataOffset]

private theorem before_replace (hn : layout.sections[n]? = some source)
    (h : source.SameShape other) :
    (layout.replace n other).before n = layout.before n := by
  have hsections : (layout.replace n other).sections.take n = layout.sections.take n :=
    List.take_set_of_le (Nat.le_refl n)
  rw [before, before, header_replace hn h, hsections]

private theorem behind_replace (hn : layout.sections[n]? = some source)
    (h : source.SameShape other) :
    (layout.replace n other).behind n = layout.behind n := by
  have hsections : (layout.replace n other).sections.drop (n + 1) = layout.sections.drop (n + 1) :=
    List.drop_set_of_lt (Nat.lt_succ_self n)
  rw [behind, behind, hsections, headers_replace hn h, tableBytes_replace hn h,
    tableBytes_replace hn h, tableBytes_replace hn h]

/-- Overwriting a part of a body in the image is writing the layout with this part overwritten. -/
theorem overwrite_write (hn : layout.sections[n]? = some source) (ht : source.table? = none)
    (hne : source.body ≠ []) {start : Nat} {new : List UInt8}
    (hin : start + new.length ≤ source.body.length) :
    Bytes.overwrite layout.write (layout.bodyOffset n source + start) new =
      (layout.replace n (source.overwrite start new)).write := by
  have hshape := source.sameShape_overwrite hin
  have hother : (layout.replace n (source.overwrite start new)).sections[n]? =
      some (source.overwrite start new) :=
    List.getElem?_set_self (List.getElem?_eq_some_iff.mp hn).1
  have hbody : source.data = source.body.take start ++
      (source.body.drop start).take new.length ++ source.body.drop (start + new.length) := by
    rw [← List.drop_drop, List.append_assoc, List.take_append_drop, List.take_append_drop,
      SectionSource.data, ht]
  have hbody' : (source.overwrite start new).data =
      source.body.take start ++ new ++ source.body.drop (start + new.length) := by
    rw [SectionSource.data, hshape.table?_eq, ht]
    rfl
  have hsplit : Bytes.toList layout.write = (layout.before n ++ source.body.take start) ++
      (source.body.drop start).take new.length ++
        (source.body.drop (start + new.length) ++ layout.behind n) := by
    rw [toList_write hn, hbody]
    simp only [List.append_assoc]
  have hstart : (layout.before n ++ source.body.take start).length =
      layout.bodyOffset n source + start := by
    rw [List.length_append, length_before ht hne, List.length_take, Nat.min_eq_left (by omega)]
  have hwidth : ((source.body.drop start).take new.length).length = new.length := by
    rw [List.length_take, List.length_drop]
    omega
  apply Bytes.toList_inj
  rw [← hstart, Bytes.toList_overwrite_of_eq hsplit hwidth, toList_write hother,
    before_replace hn hshape, behind_replace hn hshape, hbody']
  simp only [List.append_assoc]

end Layout

end BootConfig.Elf
