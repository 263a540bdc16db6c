import BootConfig.Files.Store

/-!
# Writing by way of a buffer

Bytes that are written to an open file wait in a buffer until it is full or flushed. The file may
take fewer bytes at a time than it is given, or refuse them; what it has not taken by then is left
to wait. A write of as many bytes as the buffer has room for, or more, does not go through it.
-/

namespace BootConfig.Files

/-- How many bytes a buffer has room for. -/
def bufferSize : Nat := 8192

variable {m : Type → Type} {handle : Type} [Monad m] [Store m handle]

/-- Writes bytes to an open file, part by part, until it has taken them all or refuses to take more.
The bytes that it has not taken are left. Not to take a single byte is to fail for the cause
`stuck`. -/
def writeAll (stuck : Error) (file : handle) (bytes : ByteArray) :
    m (Except Error Unit × ByteArray) :=
  if bytes.size = 0 then pure (.ok (), bytes)
  else do
    match ← (Store.write file bytes).run with
    | .error cause => pure (.error cause, bytes)
    | .ok taken =>
      if taken = 0 then pure (.error stuck, bytes)
      else writeAll stuck file (bytes.extract taken bytes.size)
termination_by bytes.size
decreasing_by
  rw [ByteArray.size_extract]
  omega

/-- Steps that write by way of a buffer. The bytes that wait in it outlive a failure. -/
abbrev Buffered (m : Type → Type) : Type → Type :=
  ExceptT Error (StateT ByteArray m)

namespace Buffered

/-- Writes out the bytes that wait. -/
def flush (file : handle) : Buffered m Unit :=
  ExceptT.mk (writeAll .notFlushed file)

/-- Writes bytes past the buffer. -/
def writeThrough (file : handle) (bytes : ByteArray) : Buffered m Unit :=
  ExceptT.mk do
    let (result, _) ← StateT.lift (writeAll .noRoom file bytes)
    return result

/-- Flushes the buffer if it has no room for so many further bytes. -/
def makeRoom (file : handle) (size : Nat) : Buffered m Unit := do
  let waiting ← get
  if bufferSize - waiting.size < size then flush file

/-- Writes bytes behind those that wait. -/
def write (file : handle) (bytes : ByteArray) : Buffered m Unit := do
  makeRoom file bytes.size
  if bufferSize ≤ bytes.size then writeThrough file bytes else modify (· ++ bytes)

end Buffered

end BootConfig.Files
