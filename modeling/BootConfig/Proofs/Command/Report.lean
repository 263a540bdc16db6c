import BootConfig.Command.Run

/-!
# How a failed run of a generator is reported

The report names both files and, below that, two causes with their numbers: what failed, and why.
-/

namespace BootConfig.Command

open BootConfig.Config (LineError)

/-- A text without line feeds is not indented. -/
theorem indentLines_of_notMem {text : String} (h : '\n' ∉ text.toList) (indent : List Char) :
    indentLines indent text = text := by
  have hsame : (text.toList.map fun c ↦ if c = '\n' then c :: indent else [c]) =
      text.toList.map fun c ↦ [c] := by
    apply List.map_congr_left
    intro c hc
    have hne : c ≠ '\n' := by
      rintro rfl
      exact h hc
    exact if_neg hne
  rw [indentLines, List.flatMap_def, hsame, ← List.flatMap_def, List.flatMap_singleton',
    String.ofList_toList]

private theorem newline_notMem_toString (n : Nat) : '\n' ∉ (toString n).toList := by
  intro h
  rw [Nat.toString_eq_repr, Nat.repr, String.toList_ofList] at h
  exact absurd (Nat.isDigit_of_mem_toDigits (by decide) (by decide) h) (by decide)

private theorem numberedCauseText_zero (cause : String) :
    numberedCauseText 0 cause =
      "    0: " ++ indentLines (List.replicate 7 ' ') cause ++ "\n" :=
  congrArg (· ++ indentLines (List.replicate 7 ' ') cause ++ "\n") (by decide)

private theorem numberedCauseText_one (cause : String) :
    numberedCauseText 1 cause =
      "    1: " ++ indentLines (List.replicate 7 ' ') cause ++ "\n" :=
  congrArg (· ++ indentLines (List.replicate 7 ' ') cause ++ "\n") (by decide)

private theorem Failure.text_pair (context first second : String) :
    (Failure.mk context [first, second]).text =
      "Error: " ++ context ++ "\n\nCaused by:\n    0: " ++
        indentLines (List.replicate 7 ' ') first ++ "\n    1: " ++
          indentLines (List.replicate 7 ' ') second ++ "\n" := by
  have hcauses : (Failure.mk context [first, second]).causesText =
      "\nCaused by:\n" ++ (numberedCauseText 0 first ++ numberedCauseText 1 second) := by
    rw [causesText]
    simp only [List.zipIdx_cons, List.zipIdx_nil, List.map_cons, List.map_nil, String.join_cons,
      String.join_nil, String.append_empty]
  apply String.toList_inj.mp
  rw [Failure.text, hcauses, numberedCauseText_zero, numberedCauseText_one]
  simp only [String.toList_append, List.append_assoc]
  rfl

/-- The text of a failed run of a generator, with its two causes. -/
def failureText (ifile ofile first second : String) : String :=
  "Error: cannot generate " ++ ofile ++ " from " ++ ifile ++ "\n\nCaused by:\n    0: " ++ first ++
    "\n    1: " ++ second ++ "\n"

private theorem text_generateFailure (ifile ofile : String) (e : Config.Error) :
    (generateFailure ifile ofile e).text =
      failureText ifile ofile (indentLines (List.replicate 7 ' ') e.message)
        (indentLines (List.replicate 7 ' ') e.causeMessage) := by
  refine (Failure.text_pair _ _ _).trans ?_
  apply String.toList_inj.mp
  unfold failureText
  simp

/-- A malformed line is reported by its number. -/
theorem text_generateFailure_line (ifile ofile : String) (number : Nat) (fault : LineError) :
    (generateFailure ifile ofile (.line number fault)).text =
      failureText ifile ofile ("line " ++ toString number) "more than one `=` in assignment" := by
  have hfirst : '\n' ∉ ("line " ++ toString number).toList := by
    rw [String.toList_append, List.mem_append, not_or]
    exact ⟨by decide, newline_notMem_toString number⟩
  have hsecond : '\n' ∉ fault.message.toList := by
    cases fault
    decide
  rw [text_generateFailure, Config.Error.message, Config.Error.causeMessage,
    indentLines_of_notMem hfirst, indentLines_of_notMem hsecond]
  cases fault
  rfl

/-- A failure with files is reported as such, and by its own text. -/
theorem text_generateFailure_io (ifile ofile : String) (cause : Files.Error) :
    (generateFailure ifile ofile (.io cause)).text =
      failureText ifile ofile "I/O error"
        (indentLines (List.replicate 7 ' ') cause.message) := by
  have hfirst : '\n' ∉ "I/O error".toList := by decide
  rw [text_generateFailure, Config.Error.message, Config.Error.causeMessage,
    indentLines_of_notMem hfirst]

end BootConfig.Command
