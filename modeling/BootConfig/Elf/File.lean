import BootConfig.Elf.Patch
import BootConfig.Files.Store

/-!
# Patching a file

A symbol of an image in a file is set in place: the file is read as a whole, and only the bytes of
the patch are written back.
-/

namespace BootConfig.Elf

open BootConfig.Files (Store)

/-- Why a symbol of an image in a file is not set. -/
inductive FileError where
  /-- The file cannot be read. -/
  | unreadable (cause : Files.Error)
  /-- The symbol cannot be set in the image that the file holds. -/
  | unpatchable (cause : Error)
  /-- The bytes cannot be written back. -/
  | unwritable (cause : Files.Error)
  deriving DecidableEq, Repr

variable {m : Type → Type} {handle : Type} [Monad m] [Store m handle]

/-- Sets a symbol of the image in a file. The result is the offset of its bytes. -/
def setSymbol (path name : String) (value : UInt64) : ExceptT FileError m Nat := do
  let input ← ExceptT.adapt FileError.unreadable (Store.openInput path)
  let bytes ← ExceptT.adapt FileError.unreadable (Store.readAll input)
  let patch ← liftExcept ((Patch.ofBytes bytes name value).mapError FileError.unpatchable)
  ExceptT.adapt FileError.unwritable (Store.overwrite path patch.offset patch.bytes)
  return patch.offset

end BootConfig.Elf
