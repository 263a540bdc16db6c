import BootConfig.Elf.Symbol

/-!
# Patches

A patch sets one symbol of an image: it replaces the bytes of the symbol by those of a value and
leaves all others alone. It is found from the image as a whole before a byte changes, so a failure
changes nothing. Of several settings each is found anew, since a symbol may lie over the headers and
tables by which the next one is found.
-/

namespace BootConfig.Elf

/-- Bytes to be put at an offset of an image. -/
structure Patch where
  offset : Nat
  bytes : List UInt8
  deriving DecidableEq, Repr

namespace Patch

/-- The offset behind the last byte of a patch. -/
def stop (patch : Patch) : Nat :=
  patch.offset + patch.bytes.length

/-- The patch that gives the symbol of a name a value. -/
def ofImage (image : Image) (name : String) (value : UInt64) : Except Error Patch := do
  let symbol ← image.findSymbol name
  let offset ← image.symbolOffset name symbol
  let bytes ← image.encode name symbol value
  return ⟨offset, bytes⟩

/-- The patch that gives the symbol of a name in the image of these bytes a value. -/
def ofBytes (bytes : ByteArray) (name : String) (value : UInt64) : Except Error Patch := do
  let image ← Image.parse bytes
  ofImage image name value

/-- The bytes of an image after the patch. -/
def apply (patch : Patch) (bytes : ByteArray) : ByteArray :=
  Bytes.overwrite bytes patch.offset patch.bytes

end Patch

/-- A symbol by name, and the value it is to get. -/
structure Setting where
  name : String
  value : UInt64
  deriving DecidableEq, Repr

/-- Makes one setting: the bytes after it, and the patch or why there is none. -/
def Setting.make (setting : Setting) (bytes : ByteArray) : ByteArray × Except Error Patch :=
  match Patch.ofBytes bytes setting.name setting.value with
  | .error e => (bytes, .error e)
  | .ok patch => (patch.apply bytes, .ok patch)

/-- Makes settings one after the other, each in the image that the ones before it left, and goes on
after a failure. -/
def makeSettings : ByteArray → List Setting → ByteArray × List (Except Error Patch)
  | bytes, [] => (bytes, [])
  | bytes, setting :: rest =>
    let (next, answer) := setting.make bytes
    let (final, answers) := makeSettings next rest
    (final, answer :: answers)

end BootConfig.Elf
