import BootConfig.Bytes.Basic
import BootConfig.Files.Tree

/-!
# Stores

What a program needs of the place where files are kept. A file is opened before it is read or
written, and opening an output empties it, so the order in which a program does these things shows
where both are the same file. A file tree is such a place; what fails there leaves the tree as far
changed as it was.
-/

namespace BootConfig.Files

/-- Operations on files in a monad, by means of handles on open files. -/
class Store (m : Type → Type) (handle : outParam Type) where
  /-- Opens a file, or a directory, to be read. -/
  openInput : String → ExceptT Error m handle
  /-- Opens a file to be written, empty, whether it exists or not. -/
  openOutput : String → ExceptT Error m handle
  /-- Reads what an open file holds. -/
  readAll : handle → ExceptT Error m ByteArray
  /-- Adds bytes to an open file, as many of the first of them as it takes, and tells how many. A
  write that is interrupted has not failed; it is made again. -/
  write : handle → ByteArray → ExceptT Error m Nat
  /-- Replaces bytes of a file from an offset on and leaves the others alone. -/
  overwrite : String → Nat → List UInt8 → ExceptT Error m Unit

namespace Tree

/-- A query on the tree, which leaves it as it is. -/
def query {α : Type} (f : Tree → Except Error α) : ExceptT Error (StateM Tree) α :=
  fun tree ↦ (f tree, tree)

/-- An open file of a tree is its location. It takes all bytes. -/
instance : Store (StateM Tree) Location where
  openInput path := query (·.locate path)
  openOutput path := do
    let location ← query (·.locateOutput path)
    modify (·.put location (.file ByteArray.empty))
    return location
  readAll location := query (·.content location)
  write location bytes := do
    let old ← query (·.content location)
    modify (·.put location (.file (old ++ bytes)))
    return bytes.size
  overwrite path offset bytes := do
    let location ← query (·.locate path)
    let old ← query (·.content location)
    modify (·.put location (.file (Bytes.overwrite old offset bytes)))

end Tree

end BootConfig.Files
