/-!
# Failures of files and streams
-/

namespace BootConfig.Files

/-- Why an operation on a file or a stream fails. -/
inductive Error where
  /-- Nothing has this path, or a directory on the way is missing. -/
  | notFound
  /-- The path leads to a directory where a file is needed. -/
  | isDirectory
  /-- The path leads on from something that is no directory. -/
  | notDirectory
  /-- The path, or a name in it, is longer than the system takes. -/
  | nameTooLong
  /-- The path holds a NUL character, which ends a path for the system. -/
  | nulInPath
  /-- The bytes read are no text. -/
  | invalidText
  /-- The output takes no more bytes. -/
  | noRoom
  /-- The output takes none of the bytes that wait to be written. -/
  | notFlushed
  /-- Any other failure, in the words of the system. -/
  | other (text : String)
  deriving DecidableEq, Repr

/-- The text of a failure. -/
def Error.message : Error → String
  | .notFound => "No such file or directory (os error 2)"
  | .isDirectory => "Is a directory (os error 21)"
  | .notDirectory => "Not a directory (os error 20)"
  | .nameTooLong => "File name too long (os error 36)"
  | .nulInPath => "file name contained an unexpected NUL byte"
  | .invalidText => "stream did not contain valid UTF-8"
  | .noRoom => "failed to write whole buffer"
  | .notFlushed => "failed to write the buffered data"
  | .other text => text

end BootConfig.Files
