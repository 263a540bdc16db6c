import BootConfig.Command.Scan
import BootConfig.Config.Format

/-!
# The tools

Two tools generate a file from a configuration, a cache and a header; the third sets a symbol of an
image. What a tool is asked to do follows from its arguments and, for the include guard, from one
variable of the environment, which counts where no option names the guard.
-/

namespace BootConfig.Command

/-- The tools. -/
inductive Tool where
  /-- Generates the configuration cache. -/
  | builtin
  /-- Generates the configuration header. -/
  | genconf
  /-- Sets a symbol of an image. -/
  | elfconf
  deriving DecidableEq, Repr

/-- What a tool is asked to do. -/
inductive Request where
  | generate (format : Config.Format) (ifile ofile : String)
  | setSymbol (file symbol : String) (value : UInt64)
  deriving DecidableEq, Repr

/-- The option for a configuration file. -/
def ifileOption : Opt := ⟨"ifile", some 'i', .path⟩

/-- The option for a generated file. -/
def ofileOption : Opt := ⟨"ofile", some 'o', .path⟩

/-- The option for an include guard. -/
def guardOption : Opt := ⟨"guard", none, .text⟩

/-- The option for the file of an image. -/
def fileOption : Opt := ⟨"file", some 'f', .path⟩

/-- The option for the name of a symbol. -/
def symbolOption : Opt := ⟨"symbol", some 's', .text⟩

/-- The option for the value of a symbol. -/
def valueOption : Opt := ⟨"value", some 'v', .number⟩

/-- The configuration cache that is generated if no other file is named. -/
def defaultCache : String := "auto.conf"

/-- The variable of the environment that names the include guard. -/
def guardVariable : String := "ELFBOOT_CONFIG_GUARD"

/-- The value of a text option, if it is given. -/
def textOf? (given : List (Opt × Argument)) (option : Opt) : Option String :=
  match given.lookup option with
  | some (.text value) => some value
  | _ => none

/-- The value of a number option, if it is given. -/
def numberOf? (given : List (Opt × Argument)) (option : Opt) : Option UInt64 :=
  match given.lookup option with
  | some (.number value) => some value
  | _ => none

namespace Tool

/-- The name of a tool. -/
def name : Tool → String
  | .builtin => "elfboot-builtin"
  | .genconf => "elfboot-genconf"
  | .elfconf => "elfboot-elfconf"

/-- What a tool is for, in one sentence. -/
def purpose : Tool → String
  | .builtin => "Generate the configuration cache " ++ defaultCache ++ " for make"
  | .genconf => "Generate the C configuration header"
  | .elfconf => "Patch the value of a symbol in a 32-bit ELF image"

/-- The options that a tool knows. -/
def options : Tool → List Opt
  | .builtin => [ifileOption, ofileOption]
  | .genconf => [ifileOption, ofileOption, guardOption]
  | .elfconf => [fileOption, symbolOption, valueOption]

/-- The options that a tool cannot do without. -/
def required : Tool → List Opt
  | .builtin => [ifileOption]
  | .genconf => [ifileOption, ofileOption]
  | .elfconf => [fileOption, symbolOption, valueOption]

/-- What the options ask of a tool, if none that it needs is missing. The environment may name an
include guard. -/
def request? (tool : Tool) (guard : Option String) (given : List (Opt × Argument)) :
    Option Request :=
  match tool with
  | .builtin => do
    let ifile ← textOf? given ifileOption
    return .generate .autoConf ifile ((textOf? given ofileOption).getD defaultCache)
  | .genconf => do
    let ifile ← textOf? given ifileOption
    let ofile ← textOf? given ofileOption
    let guard := (textOf? given guardOption).getD (guard.getD Config.defaultGuard)
    return .generate (.header guard) ifile ofile
  | .elfconf => do
    let file ← textOf? given fileOption
    let symbol ← textOf? given symbolOption
    let value ← numberOf? given valueOption
    return .setSymbol file symbol value

/-- What a command line asks of a tool, as a parser reads it. -/
def requestBy (tool : Tool) (parser : Parser) (guard : Option String) (args : List String) :
    Except Stop Request :=
  match parser.scan tool.options args with
  | .error stop => .error stop
  | .ok given =>
    match tool.request? guard given with
    | some request => .ok request
    | none =>
      let missing := tool.required.filter fun option ↦ (given.lookup option).isNone
      .error (.misuse (.missingOptions missing))

/-- What a command line asks of a tool. -/
def request (tool : Tool) (guard : Option String) (args : List String) : Except Stop Request :=
  tool.requestBy .standard guard args

end Tool

end BootConfig.Command
