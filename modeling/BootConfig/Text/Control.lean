/-!
# Control characters and sequences

A terminal takes some characters as commands and shows the others. The commands are the control
characters apart from spacing, and the sequences that an escape character opens: escape sequences
of two or more characters, control sequences up to their final character, device control strings,
system commands, and other strings up to their terminator. What is left of a text without them is
what it shows.

Spacing has two roles. Inside a string it belongs to the string. Inside an escape or control
sequence it is shown and suspends the sequence, so that the characters after it are shown too,
until the next control character takes the sequence up again or a character outside ASCII ends it.
-/

namespace BootConfig.Text

namespace Control

/-- The character that opens a sequence, whatever is open before it. -/
def escape : Char := '\x1b'

/-- A character that ends what is open without completing it. -/
def isCancel (c : Char) : Bool :=
  c == '\x18' || c == '\x1a'

/-- The character that ends a system command. -/
def bell : Char := '\x07'

/-- The byte that ends a string, wherever it stands in the encoding of a character. -/
def terminatorByte : UInt8 := 0x9c

/-- The control characters that are shown: tabulator, line feed, form feed and carriage return. -/
def isSpacing (c : Char) : Bool :=
  c == '\t' || c == '\n' || c == '\x0c' || c == '\r'

/-- A character that is shown where nothing is open. -/
def isShown (c : Char) : Bool :=
  isSpacing c || (0x20 ≤ c.toNat && c.toNat != 0x7f)

/-- A character between the start of a sequence and its end, from the space to the slash. -/
def isIntermediate (c : Char) : Bool :=
  0x20 ≤ c.toNat && c.toNat ≤ 0x2f

/-- A character of a parameter, from the digit zero to the question mark. -/
def isParameter (c : Char) : Bool :=
  0x30 ≤ c.toNat && c.toNat ≤ 0x3f

/-- A character of a parameter that has to be the first one, from `<` on. -/
def isPrivate (c : Char) : Bool :=
  0x3c ≤ c.toNat && c.toNat ≤ 0x3f

/-- A character that completes a control sequence, from the at sign to the tilde. -/
def isFinal (c : Char) : Bool :=
  0x40 ≤ c.toNat && c.toNat ≤ 0x7e

/-- What is open at some point of a text. -/
inductive Mode where
  /-- Nothing is open. -/
  | text
  /-- An escape sequence of which only the escape character was read. -/
  | escape
  /-- An escape sequence with intermediate characters. -/
  | escapeIntermediate
  /-- A control sequence. -/
  | sequence
  /-- A device control string of which nothing was read yet. -/
  | device
  /-- A device control string with parameters. -/
  | deviceParameter
  /-- A device control string with intermediate characters. -/
  | deviceIntermediate
  /-- The body of a device control string, or another string that a terminator ends. -/
  | string
  /-- A system command. -/
  | command
  deriving DecidableEq, Repr

namespace Mode

/-- What the character behind an escape character opens. -/
def opened (c : Char) : Mode :=
  if c = '[' then .sequence
  else if c = ']' then .command
  else if c = 'P' then .device
  else if c = 'X' || c = '^' || c = '_' then .string
  else .text

/-- What is open after a character that is not shown. A malformed device control string is read
over like any other string. -/
def next (mode : Mode) (c : Char) : Mode :=
  if c = Control.escape then .escape
  else if isCancel c then .text
  else
    match mode with
    | .text => .text
    | .escape =>
      if isIntermediate c then .escapeIntermediate
      else if isParameter c || isFinal c then opened c
      else .escape
    | .escapeIntermediate => if isParameter c || isFinal c then .text else .escapeIntermediate
    | .sequence => if isFinal c then .text else .sequence
    | .device =>
      if isIntermediate c then .deviceIntermediate
      else if isParameter c then .deviceParameter
      else if isFinal c then .string
      else .device
    | .deviceParameter =>
      if isIntermediate c then .deviceIntermediate
      else if isPrivate c || isFinal c then .string
      else .deviceParameter
    | .deviceIntermediate => if isParameter c || isFinal c then .string else .deviceIntermediate
    | .string => if (String.utf8EncodeChar c).contains terminatorByte then .text else .string
    | .command => if c = bell then .text else .command

/-- Is spacing shown while this is open? -/
def yieldsToSpacing : Mode → Bool
  | .escape | .escapeIntermediate | .sequence => true
  | _ => false

end Mode

/-- What is open, and whether spacing has suspended it. -/
structure State where
  mode : Mode
  suspended : Bool
  deriving DecidableEq, Repr

namespace State

/-- Nothing is open. -/
def start : State :=
  ⟨.text, false⟩

/-- Are characters read as text? -/
def readsText (state : State) : Bool :=
  state.mode == .text || state.suspended

/-- Is the next character shown? -/
def shows (state : State) (c : Char) : Bool :=
  if state.readsText then isShown c else state.mode.yieldsToSpacing && isSpacing c

/-- The state after a character. -/
def next (state : State) (c : Char) : State :=
  if state.shows c then
    if !state.readsText then { state with suspended := true }
    else if c.toNat < 0x80 then state
    else start
  else ⟨state.mode.next c, false⟩

/-- The characters that are shown from some state on. -/
def shown : State → List Char → List Char
  | _, [] => []
  | state, c :: cs =>
    if state.shows c then c :: shown (state.next c) cs else shown (state.next c) cs

end State

end Control

/-- What a text shows. -/
def shown (text : String) : String :=
  String.ofList (Control.State.start.shown text.toList)

example : shown "a\x1b[1;31mb\x1b[m" = "ab" := by decide
example : shown "a\x1b]8;;link\x07b\x1b\\" = "ab" := by decide
example : shown "a\x1b[\t31mb" = "a\t31mb" := by decide

end BootConfig.Text
