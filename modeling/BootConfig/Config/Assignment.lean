import BootConfig.Text.Blank

/-!
# Assignments

A line of a configuration assigns a raw value to a name, or says nothing, or is malformed. A line
without `=` says nothing, nor does one that starts with `#`. Blanks at the end of a line do not
count; anywhere else they belong to the name or to the value.
-/

namespace BootConfig.Config

open BootConfig.Text

/-- A name and the raw text assigned to it. -/
structure Assignment where
  name : String
  raw : String
  deriving DecidableEq, Repr

/-- What a raw value says of the thing it is assigned to. -/
inductive Value where
  /-- The text `y`: it is built in. -/
  | yes
  /-- The text `m`: it is built as a module. -/
  | asModule
  /-- The text `n`: it is left out. -/
  | no
  /-- Any other text stands for itself. -/
  | other (text : String)
  deriving DecidableEq, Repr

/-- The value that an assignment gives. -/
def Assignment.value (a : Assignment) : Value :=
  match a.raw with
  | "y" => .yes
  | "m" => .asModule
  | "n" => .no
  | text => .other text

/-- Why a line is malformed. -/
inductive LineError where
  | multipleSeparators
  deriving DecidableEq, Repr

/-- The text of a line error. -/
def LineError.message : LineError → String
  | .multipleSeparators => "more than one `=` in assignment"

/-- The character between a name and its value. -/
def separator : Char := '='

/-- The character that starts a comment, if it is the first of its line. -/
def commentMark : Char := '#'

/-- Does the line say nothing? -/
def isSkipped (line : List Char) : Bool :=
  !line.contains separator || line.head? == some commentMark

/-- Reads a line. The blanks at its end, any terminator among them, are dropped first. -/
def parseLine (line : String) : Except LineError (Option Assignment) :=
  if isSkipped line.toList then .ok none
  else
    let cs := trimEnd line.toList
    let name := cs.takeWhile (· != separator)
    let raw := (cs.dropWhile (· != separator)).drop 1
    if raw.contains separator then .error .multipleSeparators
    else .ok (some ⟨String.ofList name, String.ofList raw⟩)

/-- The line that makes an assignment. -/
def Assignment.line (a : Assignment) : String :=
  a.name ++ "=" ++ a.raw

end BootConfig.Config
