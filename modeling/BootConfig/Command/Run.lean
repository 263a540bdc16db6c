import BootConfig.Command.Report
import BootConfig.Config.File
import BootConfig.Elf.File

/-!
# Running the tools

A tool whose arguments make sense does one thing to the files and reports on it. A generator
announces the file that it is about to write; the third tool tells what it wrote and where.
-/

namespace BootConfig.Command

open BootConfig.Files (Store)

variable {m : Type → Type} {handle : Type} [Monad m] [Store m handle]

/-- The line by which a generator announces its output. -/
def progress (format : Config.Format) (ofile : String) : String :=
  match format with
  | .autoConf => "  BUILTIN " ++ ofile ++ "\n"
  | .header _ => "  GENCONF " ++ ofile ++ "\n"

/-- How a failed generator run is reported. -/
def generateFailure (ifile ofile : String) (e : Config.Error) : Failure :=
  ⟨"cannot generate " ++ ofile ++ " from " ++ ifile, [e.message, e.causeMessage]⟩

/-- How it is reported that a symbol was not set. -/
def setSymbolFailure (file symbol : String) : Elf.FileError → Failure
  | .unreadable cause => ⟨"cannot read " ++ file, [cause.message]⟩
  | .unpatchable cause => ⟨"cannot set symbol " ++ symbol ++ " in " ++ file, [cause.message]⟩
  | .unwritable cause => ⟨cause.message, []⟩

/-- The line that tells what was written where. -/
def patchedLine (file symbol : String) (value : UInt64) (offset : Nat) : String :=
  file ++ ": " ++ symbol ++ " = " ++ Numeral.hex value.toNat ++ " @ " ++ Numeral.hex offset ++ "\n"

/-- Does what is asked and reports on it. -/
def Request.run : Request → m Report
  | .generate format ifile ofile => do
    match ← (Config.generateFile format ifile ofile).run with
    | .ok _ => return ⟨0, progress format ofile, ""⟩
    | .error e => return ⟨1, progress format ofile, (generateFailure ifile ofile e).text⟩
  | .setSymbol file symbol value => do
    match ← (Elf.setSymbol file symbol value).run with
    | .ok offset => return ⟨0, "", patchedLine file symbol value offset⟩
    | .error e => return ⟨1, "", (setSymbolFailure file symbol e).text⟩

/-- Runs a tool with its arguments, as a parser reads them, and with the include guard that the
environment names. -/
def Tool.runBy (tool : Tool) (parser : Parser) (guard : Option String) (args : List String) :
    m Report :=
  match tool.requestBy parser guard args with
  | .error stop => pure (stop.report parser tool)
  | .ok request => request.run

/-- Runs a tool with its arguments, and with the include guard that the environment names. -/
def Tool.run (tool : Tool) (guard : Option String) (args : List String) : m Report :=
  tool.runBy .standard guard args

end BootConfig.Command
