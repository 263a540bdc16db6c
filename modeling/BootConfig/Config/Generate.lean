import BootConfig.Config.Sink
import BootConfig.Text.Line

/-!
# Generating a configuration file

The input is read as a whole before anything is written, so that bytes which are no UTF-8 text
leave the output empty. From the text on, everything is decided by its script.
-/

namespace BootConfig.Config

/-- What a configuration text says. -/
def Reading.ofText (text : String) : Reading :=
  ofLines (Text.lines text)

/-- The script for the bytes of a configuration. Bytes that are no text end it before it starts. -/
def scriptFor (format : Format) (input : ByteArray) : Script :=
  match String.fromUTF8? input with
  | none => ⟨[], .error (.io .invalidText)⟩
  | some text => (Reading.ofText text).script format

/-- Generates a file of the given format from the bytes of a configuration, on a sink that takes
as many bytes as it has room for. -/
def generate (format : Format) (input : ByteArray) (room : Option Nat) : Run :=
  (scriptFor format input).run room

end BootConfig.Config
