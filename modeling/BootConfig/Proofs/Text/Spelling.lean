import BootConfig.Proofs.Text.Line
import BootConfig.Text.Blank

/-!
# Ways to write lines

The same lines can be written in many ways: each may have blanks behind it, any of the three
terminators may end it, and the last one may do without. Splitting the text gives the lines with
their blanks again, but for one case: a carriage return and a line feed that were meant to end two
lines, of which the second is empty, end one.
-/

namespace BootConfig.Text

/-- What ends a line. -/
inductive Terminator where
  | lineFeed
  | carriageReturn
  /-- A carriage return with a line feed behind it. -/
  | both
  deriving DecidableEq, Repr

/-- The characters of a terminator. -/
def Terminator.chars : Terminator → List Char
  | .lineFeed => ['\n']
  | .carriageReturn => ['\r']
  | .both => ['\r', '\n']

/-- Blanks that end no line. -/
def IsPadding (cs : List Char) : Prop :=
  IsLine cs ∧ ∀ c ∈ cs, isBlank c = true

/-- It can be decided whether characters are padding. -/
instance (cs : List Char) : Decidable (IsPadding cs) :=
  decidable_of_iff (IsLine cs ∧ cs.all isBlank = true) (and_congr_right' List.all_eq_true)

/-- A way to write lines: what stands behind each of them. Only the last one may lack a
terminator. -/
inductive Spelling : List String → Type where
  | nil : Spelling []
  | last (line : String) (padding : List Char) (h : IsPadding padding) : Spelling [line]
  | cons (line : String) (padding : List Char) (h : IsPadding padding) (terminator : Terminator)
      {written : List String} (rest : Spelling written) : Spelling (line :: written)

namespace Spelling

/-- The characters that are written. -/
def chars : {written : List String} → Spelling written → List Char
  | _, nil => []
  | _, last line padding _ => line.toList ++ padding
  | _, cons line padding _ terminator rest =>
    line.toList ++ padding ++ (terminator.chars ++ rest.chars)

/-- The text that is written. -/
def text {written : List String} (spelling : Spelling written) : String :=
  String.ofList spelling.chars

/-- No carriage return that ends a line alone stands right before a line feed. -/
def Apart : {written : List String} → Spelling written → Prop
  | _, nil => True
  | _, last .. => True
  | _, cons _ _ _ terminator rest =>
    (terminator = .carriageReturn → rest.chars.head? ≠ some '\n') ∧ rest.Apart

end Spelling

/-! ### Splitting -/

private theorem linesFrom_return_newline (read rest : List Char) :
    linesFrom read ('\r' :: '\n' :: rest) = read.reverse :: linesFrom [] rest := by
  rw [linesFrom]

private theorem linesFrom_return (read : List Char) {rest : List Char}
    (h : rest.head? ≠ some '\n') :
    linesFrom read ('\r' :: rest) = read.reverse :: linesFrom [] rest := by
  rw [linesFrom]
  · rfl
  · rintro back - rfl
    exact h rfl

/-- A line with a terminator behind it is the first line, if the terminator ends there. -/
theorem splitLines_append_terminator {cs : List Char} (h : IsLine cs) {terminator : Terminator}
    {rest : List Char} (hrest : terminator = .carriageReturn → rest.head? ≠ some '\n') :
    splitLines (cs ++ (terminator.chars ++ rest)) = cs :: splitLines rest := by
  cases terminator with
  | lineFeed => exact splitLines_append_newline h rest
  | carriageReturn =>
    rw [splitLines, linesFrom_append h, Terminator.chars, List.singleton_append,
      linesFrom_return _ (hrest rfl), List.append_nil, List.reverse_reverse, splitLines]
  | both =>
    rw [splitLines, linesFrom_append h, Terminator.chars, List.cons_append, List.singleton_append,
      linesFrom_return_newline, List.append_nil, List.reverse_reverse, splitLines]

/-- A line without a terminator is the only line, if it holds anything. -/
theorem splitLines_of_isLine {cs : List Char} (h : IsLine cs) :
    splitLines cs = if cs = [] then [] else [cs] := by
  have happend := linesFrom_append h [] []
  rw [List.append_nil, List.append_nil, linesFrom, List.isEmpty_reverse,
    List.reverse_reverse] at happend
  rw [splitLines, happend]
  simp only [List.isEmpty_iff]

end BootConfig.Text
