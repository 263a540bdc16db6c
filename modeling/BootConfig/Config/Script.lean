import BootConfig.Config.Error
import BootConfig.Config.Format
import BootConfig.Config.Reading
import BootConfig.Text.Quoted

/-!
# Scripts

What a generator run does, laid out before it is done: the texts that it writes and the notes that
it makes on the lines, in order, and how it ends if every text is taken. A script depends on the
configuration and the format alone; where it is played decides how far it gets.
-/

namespace BootConfig.Config

/-- A remark on a line of the configuration, made when the line is reached. -/
structure Note where
  number : Nat
  entry : Entry
  deriving DecidableEq, Repr

/-- The text of a value in a note. -/
def Value.describe : Value → String
  | .yes => "Yes"
  | .asModule => "Module"
  | .no => "No"
  | .other text => "Other(" ++ Text.quote text ++ ")"

/-- The text of a note. -/
def Note.message (note : Note) : String :=
  "line " ++ toString note.number ++ ": " ++
    match note.entry with
    | .skipped => "skipped"
    | .assigned a => a.name ++ " = " ++ a.value.describe

/-- One step of a generator run. -/
inductive Step where
  | note (note : Note)
  | write (text : String)
  deriving DecidableEq, Repr

/-- The steps of a run, and how it ends after the last of them. -/
structure Script where
  steps : List Step
  result : Except Error Nat

/-- The steps for the line of the given number: a note, then the pieces of its assignment. -/
def Entry.steps (format : Format) (number : Nat) : Entry → List Step
  | .skipped => [.note ⟨number, .skipped⟩]
  | .assigned a => .note ⟨number, .assigned a⟩ :: (format.assignmentPieces a).map .write

namespace Reading

/-- The steps for entries of which the first belongs to the line of the given number. -/
def entrySteps (format : Format) : Nat → List Entry → List Step
  | _, [] => []
  | number, entry :: rest => entry.steps format number ++ entrySteps format (number + 1) rest

/-- The script for a reading. After a malformed line nothing follows, not even the epilogue;
otherwise the run ends with the number of assignments. -/
def script (format : Format) (reading : Reading) : Script :=
  let body := format.prologuePieces.map .write ++ entrySteps format 1 reading.entries
  match reading.fault with
  | none => ⟨body ++ format.epiloguePieces.map .write, .ok reading.assignments.length⟩
  | some fault => ⟨body, .error (.line (reading.entries.length + 1) fault)⟩

end Reading

end BootConfig.Config
