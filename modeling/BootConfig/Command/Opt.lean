import BootConfig.Text.Control
import BootConfig.Text.Numeral

/-!
# Options

The options of a tool, what their values have to be, and what can be wrong with a command line.
-/

namespace BootConfig.Command

/-- What the value of an option has to be. -/
inductive ValueKind where
  /-- A path, which is not empty. -/
  | path
  /-- Any text. -/
  | text
  /-- A numeral. -/
  | number
  deriving DecidableEq, Repr

/-- An option with its long name, its letter if it has one, and the kind of its value. -/
structure Opt where
  name : String
  letter : Option Char
  kind : ValueKind
  deriving DecidableEq, Repr

/-- An option as messages show it, with a placeholder for its value. -/
def Opt.usage (option : Opt) : String :=
  "--" ++ option.name ++ " <" ++ option.name.toUpper ++ ">"

/-- What is wrong with a command line. -/
inductive UsageError where
  | missingOptions (options : List Opt)
  | missingValue (option : Opt)
  | repeated (option : Opt)
  | unexpectedArgument (argument : String)
  | unexpectedValue (value flag : String)
  | invalidValue (value : String) (option : Opt) (cause : NumeralError)
  deriving DecidableEq, Repr

/-- The text of a usage error. What was typed goes into it as it is shown, so that a sequence which
it leaves open takes nothing of the text around it. -/
def UsageError.message : UsageError → String
  | .missingOptions options =>
    "the following required arguments were not provided:" ++
      String.join (options.map fun option ↦ "\n  " ++ option.usage)
  | .missingValue option =>
    "a value is required for '" ++ option.usage ++ "' but none was supplied"
  | .repeated option => "the argument '" ++ option.usage ++ "' cannot be used multiple times"
  | .unexpectedArgument argument => "unexpected argument '" ++ Text.shown argument ++ "' found"
  | .unexpectedValue value flag =>
    "unexpected value '" ++ Text.shown value ++ "' for '" ++ flag ++
      "' found; no more were expected"
  | .invalidValue value option cause =>
    "invalid value '" ++ Text.shown value ++ "' for '" ++ option.usage ++ "': " ++ cause.message

/-- The text of a usage error as it is printed. -/
def UsageError.text (e : UsageError) : String :=
  "error: " ++ e.message ++ "\n\nFor more information, try '--help'.\n"

/-- A value that was checked. -/
inductive Argument where
  | text (value : String)
  | number (value : UInt64)
  deriving DecidableEq, Repr

/-- Checks the value of an option. -/
def Opt.check (option : Opt) (value : String) : Except UsageError Argument :=
  match option.kind with
  | .path => if value = "" then .error (.missingValue option) else .ok (.text value)
  | .text => .ok (.text value)
  | .number =>
    match Numeral.parse value with
    | .ok number => .ok (.number number)
    | .error cause => .error (.invalidValue value option cause)

end BootConfig.Command
