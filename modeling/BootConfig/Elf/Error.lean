import BootConfig.Text.Numeral

/-!
# Failures with ELF images
-/

namespace BootConfig.Elf

/-- The tables that an image needs for its symbols to be found. -/
inductive Table where
  /-- The names of the sections. -/
  | sectionNames
  /-- The symbols. -/
  | symbols
  /-- The names of the symbols. -/
  | symbolNames
  deriving DecidableEq, Repr

/-- The name of the section that holds a table. -/
def Table.name : Table → String
  | .sectionNames => ".shstrtab"
  | .symbols => ".symtab"
  | .symbolNames => ".strtab"

/-- Why an image cannot be read or a symbol in it not be set. -/
inductive Error where
  /-- The bytes do not start as an ELF image does. -/
  | notElf
  /-- The image is of another class than 32-bit ones. -/
  | unsupportedClass (number : UInt8)
  /-- The image names no byte order that is known. -/
  | unsupportedEncoding (number : UInt8)
  /-- Something that the image refers to lies outside it. -/
  | truncated
  /-- The image has no such table. -/
  | missingSection (table : Table)
  /-- The image defines no symbol of this name. -/
  | symbolNotFound (name : String)
  /-- The symbol lies in no section of the image, or its place is out of range. -/
  | unplaceableSymbol (name : String)
  /-- No value is stored in so few or so many bytes. -/
  | unsupportedSize (name : String) (size : UInt32)
  /-- The value needs more bytes than the symbol has. -/
  | valueTooLarge (value : UInt64) (size : UInt32)
  deriving DecidableEq, Repr

/-- The text of a failure. -/
def Error.message : Error → String
  | .notElf => "not an ELF image"
  | .unsupportedClass number =>
    "unsupported ELF class " ++ toString number.toNat ++ ", only 32-bit images are supported"
  | .unsupportedEncoding number => "unsupported ELF data encoding " ++ toString number.toNat
  | .truncated => "ELF image is truncated"
  | .missingSection table => "section " ++ table.name ++ " is missing"
  | .symbolNotFound name => "symbol " ++ name ++ " not found"
  | .unplaceableSymbol name => "symbol " ++ name ++ " has no location in the image"
  | .unsupportedSize name size =>
    "symbol " ++ name ++ " has unsupported size " ++ toString size.toNat
  | .valueTooLarge value size =>
    "value " ++ Numeral.hex value.toNat ++ " does not fit into " ++ toString size.toNat ++ " bytes"

end BootConfig.Elf
