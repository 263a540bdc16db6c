import BootConfig.Command.Opt

/-!
# Scanning a command line

An option takes one value: attached to it, or as the next argument if that does not start with a
dash. A value that comes as an argument of its own is only looked at when the next option or the
end is reached; until then an argument that fits nowhere is the error to be reported. Each option is
given at most once. A request for help or for the version ends the scan, whatever follows.
-/

namespace BootConfig.Command

/-- Why a command line asks for no work. -/
inductive Stop where
  | help
  | version
  | misuse (error : UsageError)
  deriving DecidableEq, Repr

/-- An option that came without a value attached, and the argument that came for it since. -/
structure Waiting where
  option : Opt
  value : Option String
  deriving DecidableEq, Repr

/-- How far a command line is scanned: the options with checked values, and the one that waits. -/
structure Scan where
  given : List (Opt × Argument)
  waiting : Option Waiting
  deriving DecidableEq, Repr

namespace Scan

/-- Nothing scanned yet. -/
def start : Scan :=
  ⟨[], none⟩

/-- Gives an option a value. -/
def accept (scan : Scan) (option : Opt) (value : String) : Except UsageError Scan :=
  if (scan.given.lookup option).isSome then .error (.repeated option)
  else (option.check value).map fun argument ↦ { scan with given := (option, argument) :: scan.given }

/-- Gives the option that waits the value that came for it. -/
def settle (scan : Scan) : Except UsageError Scan :=
  match scan.waiting with
  | none => .ok scan
  | some ⟨option, none⟩ => .error (.missingValue option)
  | some ⟨option, some value⟩ => { scan with waiting := none }.accept option value

/-- Comes upon an option, which waits if no value is attached to it. -/
def take (scan : Scan) (option : Opt) (attached : Option String) : Except Stop Scan :=
  match scan.settle with
  | .error e => .error (.misuse e)
  | .ok settled =>
    match attached with
    | none => .ok { settled with waiting := some ⟨option, none⟩ }
    | some value => (settled.accept option value).mapError .misuse

/-- Comes upon a request that ends the scan. -/
def stopFor (scan : Scan) (stop : Stop) : Stop :=
  match scan.settle with
  | .error e => .misuse e
  | .ok _ => stop

/-- An argument that starts with two dashes, without these. -/
def longArgument (options : List Opt) (scan : Scan) (body : List Char) : Except Stop Scan :=
  let name := String.ofList (body.takeWhile (· != '='))
  let attached :=
    if body.contains '=' then some (String.ofList ((body.dropWhile (· != '=')).drop 1)) else none
  let flag? := if name = "help" then some Stop.help else if name = "version" then some .version else none
  match flag?, attached, options.find? (·.name == name) with
  | some stop, none, _ => .error (scan.stopFor stop)
  | some _, some value, _ => .error (.misuse (.unexpectedValue value ("--" ++ name)))
  | none, _, none => .error (.misuse (.unexpectedArgument ("--" ++ name)))
  | none, _, some option => scan.take option attached

/-- An argument that starts with one dash, by the letter after it and the rest. -/
def shortArgument (options : List Opt) (scan : Scan) (letter : Char) (rest : List Char) :
    Except Stop Scan :=
  let flag? := if letter = 'h' then some Stop.help else if letter = 'V' then some .version else none
  match flag?, options.find? (·.letter == some letter) with
  | some stop, _ => .error (scan.stopFor stop)
  | none, none => .error (.misuse (.unexpectedArgument (String.ofList ['-', letter])))
  | none, some option =>
    scan.take option <|
      match rest with
      | [] => none
      | '=' :: value => some (String.ofList value)
      | value => some (String.ofList value)

/-- An argument that is no option: the value of the one that waits for it, or else one too many. -/
def plainArgument (scan : Scan) (argument : String) : Except Stop Scan :=
  match scan.waiting with
  | some ⟨option, none⟩ => .ok { scan with waiting := some ⟨option, some argument⟩ }
  | _ => .error (.misuse (.unexpectedArgument argument))

/-- One argument, other than the two dashes that end the options. -/
def argument (options : List Opt) (scan : Scan) (argument : String) : Except Stop Scan :=
  match argument.toList with
  | '-' :: '-' :: body => scan.longArgument options body
  | '-' :: letter :: rest => scan.shortArgument options letter rest
  | _ => scan.plainArgument argument

/-- The arguments from some point on. Behind two dashes nothing is an option or its value, and
nothing else is expected. -/
def arguments (options : List Opt) : Scan → List String → Except Stop Scan
  | scan, [] => .ok scan
  | scan, next :: rest =>
    if next = "--" then
      match rest with
      | [] => .ok scan
      | extra :: _ => .error (.misuse (.unexpectedArgument extra))
    else
      match scan.argument options next with
      | .error stop => .error stop
      | .ok scan => arguments options scan rest

end Scan

/-- The options that a command line gives, with their values. -/
def scanArguments (options : List Opt) (args : List String) :
    Except Stop (List (Opt × Argument)) :=
  match Scan.start.arguments options args with
  | .error stop => .error stop
  | .ok scan =>
    match scan.settle with
    | .error e => .error (.misuse e)
    | .ok settled => .ok settled.given

/-- What reads command lines. It tells which of some options a command line gives, and with which
values, or why that asks for no work, and it has a text for what is wrong with a command line. -/
structure Parser where
  scan : List Opt → List String → Except Stop (List (Opt × Argument))
  text : UsageError → String

/-- The parser that the tools use. -/
def Parser.standard : Parser :=
  ⟨scanArguments, UsageError.text⟩

end BootConfig.Command
