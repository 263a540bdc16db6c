import BootConfig.Config.Generate
import BootConfig.Files.Buffer

/-!
# Generating from file to file

The input is opened before the output is created, so a missing input leaves no output behind. It is
read after that. What is written goes through a buffer, so it may reach the output late, or fail
late. What was written before a malformed line stays in the output.
-/

namespace BootConfig.Config

open BootConfig.Files (Buffered Store)

variable {m : Type → Type} {handle : Type} [Monad m] [Store m handle]

/-- An operation on files as part of a generator run. -/
def onFiles {α : Type} (operation : ExceptT Files.Error m α) : ExceptT Error m α :=
  ExceptT.adapt Error.io operation

/-- Plays steps on an open file by way of a buffer, up to a write that fails, and ends with the
given result. -/
def playSteps (result : Except Error Nat) (file : handle) :
    List Step → ExceptT Error (StateT ByteArray m) Nat
  | [] => liftExcept result
  | .note _ :: rest => playSteps result file rest
  | .write text :: rest => do
    onFiles (Buffered.write file text.toUTF8)
    playSteps result file rest

/-- Plays a script on an open file and flushes the buffer, if nothing has failed before. -/
def Script.playOn (script : Script) (file : handle) : ExceptT Error (StateT ByteArray m) Nat := do
  let count ← playSteps script.result file script.steps
  onFiles (Buffered.flush file)
  return count

/-- Plays a script on an open file. Whatever has failed, the bytes that still wait in the buffer are
written out at last, and it is not asked whether that fails. -/
def Script.writeTo (script : Script) (file : handle) : m (Except Error Nat) := do
  let (result, waiting) ← StateT.run (script.playOn file).run ByteArray.empty
  let _ ← StateT.run (Buffered.flush file : Buffered m Unit).run waiting
  return result

/-- Generates a file of the given format from a configuration file. The result is the number of
assignments. -/
def generateFile (format : Format) (ifile ofile : String) : ExceptT Error m Nat := do
  let input ← onFiles (Store.openInput ifile)
  let output ← onFiles (Store.openOutput ofile)
  let bytes ← onFiles (Store.readAll input)
  ExceptT.mk ((scriptFor format bytes).writeTo output)

end BootConfig.Config
