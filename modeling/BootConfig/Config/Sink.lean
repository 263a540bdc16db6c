import BootConfig.Bytes.Basic
import BootConfig.Config.Script

/-!
# Sinks

A sink takes bytes as long as it has room. A write that does not fit is taken up to the limit and
fails, and a run that meets such a failure ends there.
-/

namespace BootConfig.Config

/-- The bytes taken so far, and how many more are taken; `none` means without limit. -/
structure Sink where
  taken : ByteArray
  room : Option Nat

/-- An empty sink. -/
def Sink.empty (room : Option Nat) : Sink :=
  ⟨ByteArray.empty, room⟩

/-- Does a write of so many bytes fit? -/
def Sink.fits (sink : Sink) (size : Nat) : Bool :=
  match sink.room with
  | none => true
  | some room => size ≤ room

/-- Writes bytes, as many of them as there is room for. -/
def Sink.write (sink : Sink) (bytes : ByteArray) : Sink :=
  match sink.room with
  | none => ⟨sink.taken ++ bytes, none⟩
  | some room => ⟨sink.taken ++ bytes.extract 0 (min room bytes.size), some (room - bytes.size)⟩

/-- A write adds its bytes to those taken, up to the room that is left. -/
theorem Sink.toList_taken_write (sink : Sink) (bytes : ByteArray) :
    Bytes.toList (sink.write bytes).taken = Bytes.toList sink.taken ++
      (match sink.room with
        | none => Bytes.toList bytes
        | some room => (Bytes.toList bytes).take room) := by
  obtain ⟨taken, _ | room⟩ := sink
  · simp [write, Bytes.toList, ByteArray.data_append]
  · simp [write, Bytes.toList, ByteArray.data_append, ByteArray.data_extract,
      List.extract_eq_take_drop]

/-- What a run leaves behind: the bytes that its sink took, its notes, and its result. -/
structure Run where
  output : ByteArray
  notes : List Note
  result : Except Error Nat

/-- The run with a note made before it. -/
def Run.noted (note : Note) (run : Run) : Run :=
  { run with notes := note :: run.notes }

/-- Plays the rest of a script on a sink. -/
def Sink.play (result : Except Error Nat) : Sink → List Step → Run
  | sink, [] => ⟨sink.taken, [], result⟩
  | sink, .note note :: rest => (play result sink rest).noted note
  | sink, .write text :: rest =>
    let next := sink.write text.toUTF8
    if sink.fits text.utf8ByteSize then play result next rest
    else ⟨next.taken, [], .error (.io .noRoom)⟩

/-- Plays a script on an empty sink with the given room. -/
def Script.run (script : Script) (room : Option Nat) : Run :=
  (Sink.empty room).play script.result script.steps

end BootConfig.Config
