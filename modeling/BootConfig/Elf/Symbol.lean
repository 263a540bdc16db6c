import BootConfig.Elf.Image

/-!
# Symbols

A symbol is looked up by name, placed in the image, and given a value. Of several symbols with one
name only the first counts. Its place follows from its section: as far behind the start of the
section in the image as its address lies behind the section's address.
-/

namespace BootConfig.Elf

/-- A symbol as its entry describes it. -/
structure Symbol where
  /-- Its address when the program runs. -/
  value : UInt32
  /-- How many bytes it has. -/
  size : UInt32
  /-- The index of the section in which it is defined; zero if it is defined elsewhere. -/
  sectionIndex : UInt16
  deriving DecidableEq, Repr

/-- Section indices from here on stand for no section. -/
def reservedIndex : UInt16 := 0xff00

namespace Image

/-- Where the first of `count` entries with the given name starts, if there is one. The entries
start at `offset`; a name that cannot be read ends the search. -/
def findEntry (image : Image) (name : List UInt8) : Nat → Nat → Except Error (Option Nat)
  | 0, _ => .ok none
  | count + 1, offset =>
    match image.word offset >>= image.nameAt image.symbolNames with
    | .error e => .error e
    | .ok entryName =>
      if entryName = name then .ok (some offset)
      else findEntry image name count (offset + image.symbols.entrySize.toNat)

/-- The symbol whose entry starts at an offset. -/
def symbolAt (image : Image) (offset : Nat) : Except Error Symbol := do
  let value ← image.word (offset + 4)
  let size ← image.word (offset + 8)
  let sectionIndex ← image.half (offset + 14)
  return ⟨value, size, sectionIndex⟩

/-- The symbol of a name. The first entry of that name has to define it. -/
def findSymbol (image : Image) (name : String) : Except Error Symbol := do
  match ← image.findEntry (Bytes.toList name.toUTF8) image.symbolCount image.symbols.offset.toNat with
  | none => throw (.symbolNotFound name)
  | some offset =>
    let symbol ← image.symbolAt offset
    if symbol.sectionIndex = 0 then throw (.symbolNotFound name) else return symbol

/-- The section in which a symbol lies, if its index stands for one. -/
def sectionOf? (image : Image) (symbol : Symbol) : Option Section :=
  if reservedIndex ≤ symbol.sectionIndex then none
  else image.sections[symbol.sectionIndex.toNat]?

/-- The offset in the image at which the bytes of a symbol start. Neither the step from the
address of the section nor the offset may leave the range of 32-bit numbers, and the bytes have to
lie in the image. -/
def symbolOffset (image : Image) (name : String) (symbol : Symbol) : Except Error Nat :=
  match image.sectionOf? symbol with
  | none => .error (.unplaceableSymbol name)
  | some place =>
    if symbol.value < place.address then .error (.unplaceableSymbol name)
    else
      let offset := (symbol.value - place.address).toNat + place.offset.toNat
      if UInt32.size ≤ offset then .error (.unplaceableSymbol name)
      else (image.slice offset symbol.size.toNat).map fun _ ↦ offset

/-- The bytes that store a value in a symbol, in the byte order of the image. -/
def encode (image : Image) (name : String) (symbol : Symbol) (value : UInt64) :
    Except Error (List UInt8) :=
  let width := symbol.size.toNat
  if width = 0 ∨ 8 < width then .error (.unsupportedSize name symbol.size)
  else if ByteOrder.bound width ≤ value.toNat then .error (.valueTooLarge value symbol.size)
  else .ok (image.order.encode width value.toNat)

end Image

end BootConfig.Elf
