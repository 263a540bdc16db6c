import BootConfig.Elf.Content

/-!
# ELF images

A 32-bit ELF image whose section headers are read and whose tables for symbols are found. Parsing
checks, in this order: the identification, the fields of the header, every section header, and the
presence of the table of section names, of the symbols and of their names.
-/

namespace BootConfig.Elf

/-- An image with its sections and the tables for its symbols. -/
structure Image extends Content where
  sections : List Section
  sectionNames : Section
  symbols : Section
  symbolNames : Section

namespace Image

/-- Reads the sections of an image and finds its tables. -/
def ofContent (content : Content) : Except Error Image := do
  let start ← content.word 32
  let stride ← content.half 46
  let count ← content.half 48
  let namesIndex ← content.half 50
  let sections ← content.sections start.toNat stride.toNat count.toNat
  match sections[namesIndex.toNat]? with
  | none => throw (.missingSection .sectionNames)
  | some sectionNames =>
    let symbols ← content.findSection sectionNames .symbols sections
    let symbolNames ← content.findSection sectionNames .symbolNames sections
    return { content with sections, sectionNames, symbols, symbolNames }

/-- Reads the bytes of an image. -/
def parse (bytes : ByteArray) : Except Error Image :=
  Content.ofBytes bytes >>= ofContent

/-- The number of entries of the symbol table; a table whose entries have no size has none. -/
def symbolCount (image : Image) : Nat :=
  if image.symbols.entrySize = 0 then 0
  else image.symbols.size.toNat / image.symbols.entrySize.toNat

/-- One line that tells what the image is. -/
def summary (image : Image) : String :=
  image.order.name ++ " endian ELF32 image with " ++ toString image.sections.length ++
    " sections and " ++ toString image.symbolCount ++ " symbols"

end Image

end BootConfig.Elf
