import BootConfig.Proofs.Elf.Patch
import Mathlib.Control.Monad.Basic

/-!
# Writing an ELF image

The layout of an image that is written from its sections and symbols. In this order stand the
header, the bodies of the sections, the names of the sections, the names of the symbols, the
entries of the symbols, and the section headers. The sections named after a table have that table
as their body.
-/

namespace BootConfig.Elf

/-- The bytes of the name of the section that holds a table. -/
def Table.nameBytes (table : Table) : List UInt8 :=
  Bytes.toList table.name.toUTF8

/-- The tables in the order in which they are written. -/
def Table.all : List Table := [.sectionNames, .symbolNames, .symbols]

/-- A section to be written. The body does not count if the section is named after a table. -/
structure SectionSource where
  name : List UInt8
  address : UInt32
  body : List UInt8
  deriving DecidableEq, Repr

/-- A symbol to be written. -/
structure SymbolSource where
  name : List UInt8
  symbol : Symbol
  deriving DecidableEq, Repr

/-- The table after which a section is named. -/
def SectionSource.table? (source : SectionSource) : Option Table :=
  Table.all.find? fun table ↦ source.name = table.nameBytes

/-- The bytes of a section that stand among the bodies; a table stands behind them. -/
def SectionSource.data (source : SectionSource) : List UInt8 :=
  match source.table? with
  | some _ => []
  | none => source.body

/-! ### Tables of names -/

/-- A name with the zero byte that ends it. The empty name needs none of its own. -/
def terminated (name : List UInt8) : List UInt8 :=
  if name = [] then [] else name ++ [0]

/-- Names one after the other, behind a zero byte that stands for the empty name. -/
def nameTable (names : List (List UInt8)) : List UInt8 :=
  0 :: names.flatMap terminated

/-- Where in the table of names the name with a given number starts. -/
def nameIndex (names : List (List UInt8)) (n : Nat) : Nat :=
  if names[n]? = some [] then 0 else 1 + ((names.take n).flatMap terminated).length

/-! ### Layouts -/

/-- What an image is written from. -/
structure Layout where
  order : ByteOrder
  /-- The address at which the program starts. -/
  entry : UInt32
  sections : List SectionSource
  symbols : List SymbolSource

namespace Layout

variable (layout : Layout)

/-- A 16-bit number. -/
def half (value : UInt16) : List UInt8 :=
  layout.order.encode 2 value.toNat

/-- A 32-bit number. -/
def word (value : UInt32) : List UInt8 :=
  layout.order.encode 4 value.toNat

/-- The names of the sections in order. -/
def sectionNames : List (List UInt8) :=
  layout.sections.map (·.name)

/-- The names of the symbols in order. -/
def symbolNames : List (List UInt8) :=
  layout.symbols.map (·.name)

/-- The entry of a symbol: where its name starts, its value and size, what kind of symbol it is, and
its section. -/
def symbolEntry (n : Nat) (source : SymbolSource) : List UInt8 :=
  layout.word (.ofNat (nameIndex layout.symbolNames n)) ++ layout.word source.symbol.value ++
    layout.word source.symbol.size ++ [0x11, 0] ++ layout.half source.symbol.sectionIndex

/-- The bytes of a table. -/
def tableBytes : Table → List UInt8
  | .sectionNames => nameTable layout.sectionNames
  | .symbols => (layout.symbols.mapIdx layout.symbolEntry).flatten
  | .symbolNames => nameTable layout.symbolNames

/-- The body of a section. -/
def body (source : SectionSource) : List UInt8 :=
  match source.table? with
  | some table => layout.tableBytes table
  | none => source.body

/-- The bodies of the sections that are not tables. -/
def data : List UInt8 :=
  layout.sections.flatMap (·.data)

/-- Where the bodies of the sections start. -/
def dataOffset : Nat := 0x40

/-- Where a table starts. -/
def tableOffset : Table → Nat
  | .sectionNames => dataOffset + layout.data.length
  | .symbolNames =>
    dataOffset + layout.data.length + (layout.tableBytes .sectionNames).length
  | .symbols =>
    dataOffset + layout.data.length + (layout.tableBytes .sectionNames).length +
      (layout.tableBytes .symbolNames).length

/-- Where the section headers start. -/
def headersOffset : Nat :=
  layout.tableOffset .symbols + (layout.tableBytes .symbols).length

/-- Where the body of the section with a given number starts. A section without a body starts at
zero. -/
def bodyOffset (n : Nat) (source : SectionSource) : Nat :=
  match source.table? with
  | some table => layout.tableOffset table
  | none =>
    if source.body = [] then 0
    else dataOffset + ((layout.sections.take n).flatMap (·.data)).length

/-- What the header of the section with a given number says of it. -/
def describe (n : Nat) (source : SectionSource) : Section where
  nameIndex := .ofNat (nameIndex layout.sectionNames n)
  address := source.address
  offset := .ofNat (layout.bodyOffset n source)
  size := .ofNat (layout.body source).length
  entrySize := if source.table? = some .symbols then 16 else 0

/-- A section header. Besides what it says of the section it has its kind, its flags, two links and
its alignment. -/
def sectionHeader (described : Section) : List UInt8 :=
  [described.nameIndex, 1, 0, described.address, described.offset, described.size, 0, 0, 1,
    described.entrySize].flatMap layout.word

/-- The section headers. -/
def headers : List UInt8 :=
  (layout.sections.mapIdx fun n source ↦ layout.sectionHeader (layout.describe n source)).flatten

/-- The header of the image: the identification, the kind of the image and of the machine, the start
of the program, where the section headers are, and which of them is that of the section names. -/
def header : List UInt8 :=
  magic ++ [class32, encodingByte layout.order, 1, 0, 0, 0, 0, 0, 0, 0, 0, 0] ++
    layout.half 2 ++ layout.half 3 ++ layout.word 1 ++ layout.word layout.entry ++ layout.word 0 ++
    layout.word (.ofNat layout.headersOffset) ++ layout.word 0 ++ layout.half 52 ++ layout.half 0 ++
    layout.half 0 ++ layout.half 40 ++ layout.half (.ofNat layout.sections.length) ++
    layout.half (.ofNat (layout.sections.findIdx (·.table? = some .sectionNames)))

/-- The bytes of the image. The header is filled up to where the bodies of the sections start. -/
def write : ByteArray :=
  ⟨(layout.header ++ List.replicate 12 0 ++ layout.data ++ layout.tableBytes .sectionNames ++
    layout.tableBytes .symbolNames ++ layout.tableBytes .symbols ++ layout.headers).toArray⟩

/-- What a layout has to satisfy to be written: no name contains a zero byte, there is a section for
each table (several may share it), and numbers of sections and offsets do not exceed their
fields. -/
structure Valid : Prop where
  sectionNames : ∀ source ∈ layout.sections, 0 ∉ source.name
  symbolNames : ∀ source ∈ layout.symbols, 0 ∉ source.name
  tables : ∀ table : Table, ∃ source ∈ layout.sections, source.name = table.nameBytes
  length_lt : layout.sections.length < 65536
  headersOffset_lt : layout.headersOffset < UInt32.size

/-- A small image: eight bytes of data with two symbols in them, and a symbol that is defined
elsewhere. -/
def sample (order : ByteOrder) : Layout where
  order := order
  entry := 0x7c00
  sections :=
    [⟨[], 0, []⟩, ⟨Table.nameBytes .sectionNames, 0, []⟩, ⟨Table.nameBytes .symbols, 0, []⟩,
      ⟨Table.nameBytes .symbolNames, 0, []⟩,
      ⟨Bytes.toList ".data".toUTF8, 0x7c00, List.replicate 8 0xaa⟩]
  symbols :=
    [⟨[], ⟨0, 0, 0⟩⟩, ⟨Bytes.toList "stage_addr".toUTF8, ⟨0x7c00, 4, 4⟩⟩,
      ⟨Bytes.toList "stage_flags".toUTF8, ⟨0x7c04, 1, 4⟩⟩,
      ⟨Bytes.toList "extern_sym".toUTF8, ⟨0, 4, 0⟩⟩]

/-- The small image can be written in both byte orders. -/
theorem valid_sample (order : ByteOrder) : (sample order).Valid := by
  cases order
  all_goals
    refine ⟨by decide +kernel, by decide +kernel, ?_, by decide, by decide +kernel⟩
    intro table
    cases table <;> decide +kernel

/-- The bytes of the small image, the most significant byte of a number first. -/
@[irreducible]
def sampleBytes : ByteArray :=
  (sample .big).write

/-- A value for the first symbol of the small image. -/
def sampleSetting : Setting :=
  ⟨"stage_addr", 0x12345678⟩

/-- The value at the start of the data of the small image. -/
def samplePatch : Patch :=
  ⟨0x40, [0x12, 0x34, 0x56, 0x78]⟩

/-- The first symbol of the small image is set at the start of its data. -/
theorem ofBytes_sample :
    Patch.ofBytes sampleBytes sampleSetting.name sampleSetting.value = .ok samplePatch := by
  decide +kernel

end Layout

end BootConfig.Elf
