import BootConfig.Command.Tool

/-!
# Reports

What a tool leaves for its caller besides files: an exit code and the texts on the two output
streams. A failed run is reported by what it was about and, below that, its causes, one after the
other. They are numbered if there are several; the further lines of a cause are indented as far as
its first.
-/

namespace BootConfig.Command

/-- The exit code of a tool and what it prints. -/
structure Report where
  exitCode : UInt8
  stdout : String
  stderr : String
  deriving DecidableEq, Repr

/-- What a failed run was about, and its causes from the nearest on. -/
structure Failure where
  context : String
  causes : List String
  deriving DecidableEq, Repr

/-- A text with the given characters behind each of its line feeds. -/
def indentLines (indent : List Char) (text : String) : String :=
  String.ofList (text.toList.flatMap fun c ↦ if c = '\n' then c :: indent else [c])

/-- The lines of the only cause. -/
def causeText (cause : String) : String :=
  "    " ++ indentLines (List.replicate 4 ' ') cause ++ "\n"

/-- The lines of a cause with a number, which has room for five digits. -/
def numberedCauseText (number : Nat) (cause : String) : String :=
  let digits := (toString number).toList
  String.ofList (List.replicate (5 - digits.length) ' ' ++ digits) ++ ": " ++
    indentLines (List.replicate 7 ' ') cause ++ "\n"

namespace Failure

/-- The text below the heading of the causes. -/
def causesText (failure : Failure) : String :=
  match failure.causes with
  | [] => ""
  | [cause] => "\nCaused by:\n" ++ causeText cause
  | causes =>
    "\nCaused by:\n" ++
      String.join (causes.zipIdx.map fun (cause, number) ↦ numberedCauseText number cause)

/-- The text of a failure. -/
def text (failure : Failure) : String :=
  "Error: " ++ failure.context ++ "\n" ++ failure.causesText

example : (Failure.mk "cannot read a" ["gone"]).text =
    "Error: cannot read a\n\nCaused by:\n    gone\n" := by decide
example : (Failure.mk "no" ["line 2", "a\nb"]).text =
    "Error: no\n\nCaused by:\n    0: line 2\n    1: a\n       b\n" := by decide

end Failure

/-- How an option is listed in the help. -/
def Opt.helpLine (option : Opt) : String :=
  let letter := match option.letter with
    | some letter => String.ofList ['-', letter, ',', ' ']
    | none => "    "
  "  " ++ letter ++ option.usage ++ "\n"

/-- The help of a tool. -/
def Tool.help (tool : Tool) : String :=
  tool.purpose ++ "\n\nUsage: " ++ tool.name ++ " [OPTIONS]\n\nOptions:\n" ++
    String.join (tool.options.map Opt.helpLine) ++ "  -h, --help\n  -V, --version\n"

/-- The version of the tools. -/
def toolsVersion : String := "0.0.0"

/-- The report of a tool that is asked for no work. -/
def Stop.report (parser : Parser) (tool : Tool) : Stop → Report
  | .help => ⟨0, tool.help, ""⟩
  | .version => ⟨0, tool.name ++ " " ++ toolsVersion ++ "\n", ""⟩
  | .misuse e => ⟨2, "", parser.text e⟩

end BootConfig.Command
