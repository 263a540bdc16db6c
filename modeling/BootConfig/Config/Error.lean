import BootConfig.Config.Assignment
import BootConfig.Files.Error

/-!
# Failures of a generator run
-/

namespace BootConfig.Config

/-- Why a generator run fails. -/
inductive Error where
  /-- An input could not be read or an output not be written. -/
  | io (cause : Files.Error)
  /-- The line of this number, counted from one, is malformed. -/
  | line (number : Nat) (cause : LineError)
  deriving DecidableEq, Repr

/-- The text of a failure, without its cause. -/
def Error.message : Error → String
  | .io _ => "I/O error"
  | .line number _ => "line " ++ toString number

/-- The text of what caused a failure. -/
def Error.causeMessage : Error → String
  | .io cause => cause.message
  | .line _ cause => cause.message

end BootConfig.Config
