import BootConfig.Command.Run

/-!
# The command line

The first argument names the tool, the others are for it. Files are those of the system.
-/

namespace BootConfig

/-- A failure of the system in the terms of the library. -/
def Files.Error.ofSystem : IO.Error → Files.Error
  | .noFileOrDirectory .. => .notFound
  | .inappropriateType _ 21 _ => .isDirectory
  | .inappropriateType _ 20 _ => .notDirectory
  | .invalidArgument _ 36 _ => .nameTooLong
  | e => .other (toString e)

/-- An operation of the system on files. -/
def onSystem {α : Type} (operation : IO α) : ExceptT Files.Error IO α := do
  match ← operation.toBaseIO with
  | .ok value => return value
  | .error e => throw (.ofSystem e)

/-- An operation of the system on the file at a path. -/
def atPath {α : Type} (path : String) (operation : IO α) : ExceptT Files.Error IO α :=
  if Files.nul ∈ path.toList then throw .nulInPath else onSystem operation

/-- The files of the system. Bytes in the middle of a file are reached by writing the ones before
them anew, as they are. -/
instance : Files.Store IO IO.FS.Handle where
  openInput path := atPath path (IO.FS.Handle.mk path .read)
  openOutput path := atPath path (IO.FS.Handle.mk path .write)
  readAll file := onSystem file.readBinToEnd
  write file bytes := onSystem do
    file.write bytes
    file.flush
    return bytes.size
  overwrite path offset bytes := atPath path do
    let before ← (← IO.FS.Handle.mk path .read).readBinToEnd
    let file ← IO.FS.Handle.mk path .readWrite
    file.write (before.extract 0 offset ++ bytes.toByteArray)
    file.flush

/-- The tool of a name. -/
def Command.Tool.ofName? : String → Option Command.Tool
  | "builtin" => some .builtin
  | "genconf" => some .genconf
  | "elfconf" => some .elfconf
  | _ => none

end BootConfig

/-- Runs the tool that the first argument names. -/
def main (args : List String) : IO UInt32 := do
  let tool? := args.head?.bind BootConfig.Command.Tool.ofName?
  match tool? with
  | none =>
    IO.eprintln "error: the first argument names a tool: builtin, genconf or elfconf"
    return 2
  | some tool =>
    let guard ← IO.getEnv BootConfig.Command.guardVariable
    let report ← (tool.run guard args.tail : IO BootConfig.Command.Report)
    IO.print report.stdout
    IO.eprint report.stderr
    return report.exitCode.toUInt32
