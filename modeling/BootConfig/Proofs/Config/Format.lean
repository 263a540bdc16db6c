import BootConfig.Config.Format
import BootConfig.Proofs.Config.Line

/-!
# The lines of a format

What each format writes, line by line: a fixed opening, one row for each assignment and a fixed
closing. The pieces in which a text is handed over make up these lines.
-/

namespace BootConfig.Config

open BootConfig.Text (IsLine unlines)

namespace Assignment

private theorem value_eq_yes_iff (a : Assignment) : a.value = .yes ↔ a.raw = "y" := by
  unfold value
  split <;> simp_all

private theorem value_eq_asModule_iff (a : Assignment) : a.value = .asModule ↔ a.raw = "m" := by
  unfold value
  split <;> simp_all

private theorem value_eq_no_iff (a : Assignment) : a.value = .no ↔ a.raw = "n" := by
  unfold value
  split <;> simp_all

end Assignment

namespace Format

/-- The lines before the first assignment. -/
def opening : Format → List String
  | .autoConf =>
    ["# This file is automatically created with:", "# builtin = $(BUILTIN) -i $(1)", "#",
      "# Do NOT change this file manually!", ""]
  | .header guard => ["#ifndef " ++ guard, "#define " ++ guard, ""]

/-- The line of an assignment. A cache restates every raw value. A header leaves `y` out, remarks
that there is no definition for `n`, and states any other raw value, `m` among them. -/
def row (format : Format) (a : Assignment) : String :=
  match format with
  | .autoConf => "CONFIG_" ++ a.name ++ "=" ++ a.raw
  | .header _ =>
    if a.raw = "y" then "#define CONFIG_" ++ a.name
    else if a.raw = "n" then "/* CONFIG_" ++ a.name ++ " is not defined */"
    else "#define CONFIG_" ++ a.name ++ " " ++ a.raw

/-- The lines after the last assignment. -/
def closing : Format → List String
  | .autoConf => []
  | .header guard => ["", "#endif /* " ++ guard ++ " */"]

/-- The prologue is made up of the opening lines. -/
theorem prologue_eq (format : Format) : format.prologue = unlines format.opening := by
  cases format with
  | autoConf => rfl
  | header guard =>
    simp only [prologue, prologuePieces, opening, unlines, List.map_cons, List.map_nil,
      String.join_cons, String.join_nil, String.append_assoc, String.append_empty,
      String.empty_append]

/-- The epilogue is made up of the closing lines. -/
theorem epilogue_eq (format : Format) : format.epilogue = unlines format.closing := by
  cases format with
  | autoConf => rfl
  | header guard =>
    simp only [epilogue, epiloguePieces, closing, unlines, List.map_cons, List.map_nil,
      String.join_cons, String.join_nil, String.append_assoc, String.append_empty,
      String.empty_append, String.reduceAppend]

/-- What is written for an assignment is its row. A cache writes `y` and `m` in branches of their
own and a header `y` and `n`, and in each of these the value says what the raw value is. -/
theorem assignment_eq (format : Format) (a : Assignment) :
    format.assignment a = format.row a ++ "\n" := by
  have hyes := a.value_eq_yes_iff
  have hno := a.value_eq_no_iff
  apply String.toList_injective
  cases format with
  | autoConf =>
    cases hv : a.value with
    | yes =>
      have hraw := hyes.mp hv
      simp [assignment, assignmentPieces, row, namePrefix, hv, hraw]
    | asModule =>
      have hraw := a.value_eq_asModule_iff.mp hv
      simp [assignment, assignmentPieces, row, namePrefix, hv, hraw]
    | no => simp [assignment, assignmentPieces, row, namePrefix, hv]
    | other text => simp [assignment, assignmentPieces, row, namePrefix, hv]
  | header guard =>
    rw [row]
    cases hv : a.value with
    | yes =>
      rw [if_pos (hyes.mp hv)]
      simp [assignment, assignmentPieces, namePrefix, hv]
    | asModule =>
      rw [if_neg (by simp [← hyes, hv]), if_neg (by simp [← hno, hv])]
      simp [assignment, assignmentPieces, namePrefix, hv]
    | no =>
      rw [if_neg (by simp [← hyes, hv]), if_pos (hno.mp hv)]
      simp [assignment, assignmentPieces, namePrefix, hv]
    | other text =>
      rw [if_neg (by simp [← hyes, hv]), if_neg (by simp [← hno, hv])]
      simp [assignment, assignmentPieces, namePrefix, hv]

end Format

/-- In either format, the row of a clean assignment stands on one line. -/
theorem Assignment.Clean.isLine_row {a : Assignment} (h : a.Clean) (format : Format) :
    IsLine (format.row a).toList := by
  cases format with
  | autoConf =>
    simp only [Format.row, String.toList_append]
    exact ((IsLine.append (by decide) h.name_isLine).append (by decide)).append h.raw_isLine
  | header guard =>
    simp only [Format.row]
    split
    · rw [String.toList_append]
      exact IsLine.append (by decide) h.name_isLine
    split
    · simp only [String.toList_append]
      exact (IsLine.append (by decide) h.name_isLine).append (by decide)
    · simp only [String.toList_append]
      exact ((IsLine.append (by decide) h.name_isLine).append (by decide)).append h.raw_isLine

end BootConfig.Config
