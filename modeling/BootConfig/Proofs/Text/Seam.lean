import Mathlib.Data.List.Basic
import BootConfig.Proofs.Text.Division

/-!
# Lines on both sides of a seam

A text that ends where a line does can be split apart from what stands behind it. Only at the seam
two characters may belong together: a carriage return at the end and a line feed behind it end one
line, so that the empty line before that line feed is not there.
-/

namespace BootConfig.Text

/-- Characters end where a line does: there are none, or the last one ends a line. -/
def EndsLine (cs : List Char) : Prop :=
  ∀ c, cs.getLast? = some c → isTerminator c = true

/-- The last of some characters and the first behind them are one terminator. -/
def Merges (cs ds : List Char) : Prop :=
  cs.getLast? = some '\r' ∧ ds.head? = some '\n'

/-- It can be decided whether characters end a line. -/
instance (cs : List Char) : Decidable (EndsLine cs) :=
  decidable_of_iff (cs.getLast?.all isTerminator = true) (by simp [EndsLine, Option.all_eq_true])

/-- It can be decided whether two texts merge where they meet. -/
instance (cs ds : List Char) : Decidable (Merges cs ds) :=
  inferInstanceAs (Decidable (_ ∧ _))

/-- What starts a new line behind other characters: all but a line feed that belongs to them. -/
def pastSeam (cs ds : List Char) : List Char :=
  if Merges cs ds then ds.tail else ds

private theorem not_merges_nil (ds : List Char) : ¬Merges [] ds :=
  fun h ↦ nomatch h.1

private theorem pastSeam_append {cs : List Char} (h : cs ≠ []) (front ds : List Char) :
    pastSeam (front ++ cs) ds = pastSeam cs ds := by
  have hmerges : Merges (front ++ cs) ds ↔ Merges cs ds := by
    rw [Merges, List.getLast?_append_of_ne_nil _ h, Merges]
  simp only [pastSeam, hmerges]

private theorem not_endsLine_of_isLine {line : List Char} (h : IsLine line) (hne : line ≠ []) :
    ¬EndsLine line := by
  intro hends
  have hlast := hends _ (List.getLast?_eq_some_getLast hne)
  rw [h _ (List.getLast_mem hne)] at hlast
  cases hlast

private theorem splitLines_append_pastSeam {line : List Char} (h : IsLine line)
    (terminator : Terminator)
    (ds : List Char) :
    splitLines (line ++ (terminator.chars ++ ds)) =
      line :: splitLines (pastSeam terminator.chars ds) := by
  by_cases hmerges : Merges terminator.chars ds
  · obtain ⟨rest, rfl⟩ := List.head?_eq_some_iff.mp hmerges.2
    cases terminator with
    | carriageReturn =>
      rw [pastSeam, if_pos hmerges, List.tail_cons]
      have hapart : Terminator.both = .carriageReturn → rest.head? ≠ some '\n' := nofun
      exact splitLines_append_terminator h hapart
    | lineFeed => exact absurd hmerges.1 (by decide)
    | both => exact absurd hmerges.1 (by decide)
  · rw [pastSeam, if_neg hmerges]
    apply splitLines_append_terminator h
    rintro rfl hhead
    exact hmerges ⟨rfl, hhead⟩

/-- What stands behind lines is split apart from them. The induction is on the lines, and the last
of them reaches the seam. -/
theorem IsDivision.splitLines_append {segments : List Segment} (h : IsDivision segments)
    (hends : EndsLine (joined segments)) (ds : List Char) :
    splitLines (joined segments ++ ds) =
      splitLines (joined segments) ++ splitLines (pastSeam (joined segments) ds) := by
  induction h with
  | nil =>
    have hnothing : joined [] = [] := rfl
    rw [hnothing, pastSeam, if_neg (not_merges_nil ds)]
    rfl
  | last hline hne =>
    rw [joined_last] at hends
    exact (not_endsLine_of_isLine hline hne hends).elim
  | @cons line terminator rest hline hrest hapart ih =>
    rw [joined_cons] at hends ⊢
    rw [splitLines_append_terminator hline hapart, List.append_assoc, List.append_assoc]
    by_cases hlast : joined rest = []
    · rw [hlast, List.append_nil, List.nil_append, splitLines_append_pastSeam hline,
        pastSeam_append terminator.chars_ne_nil]
      rfl
    · have hmore : EndsLine (joined rest) := by
        rwa [EndsLine, ← List.append_assoc, List.getLast?_append_of_ne_nil _ hlast] at hends
      have hbehind : terminator = .carriageReturn → (joined rest ++ ds).head? ≠ some '\n' := by
        intro hreturn
        rw [List.head?_append_of_ne_nil _ hlast]
        exact hapart hreturn
      rw [splitLines_append_terminator hline hbehind, ih hmore, ← List.append_assoc line,
        pastSeam_append hlast]
      rfl

/-- A text that ends where a line does is split apart from what stands behind it. -/
theorem splitLines_append {cs : List Char} (h : EndsLine cs) (ds : List Char) :
    splitLines (cs ++ ds) = splitLines cs ++ splitLines (pastSeam cs ds) := by
  obtain ⟨segments, hdivision, rfl⟩ := exists_isDivision cs
  exact hdivision.splitLines_append h ds

variable {text more : String}

/-- Where nothing merges, the lines of two texts are those of the one and those of the other. -/
theorem lines_append (h : EndsLine text.toList) (hmerges : ¬Merges text.toList more.toList) :
    lines (text ++ more) = lines text ++ lines more := by
  rw [lines, String.toList_append, splitLines_append h, pastSeam, if_neg hmerges, List.map_append,
    lines, lines]

/-- Where two characters merge, the empty first line of the text behind the seam is not there. -/
theorem lines_append_of_merges (h : EndsLine text.toList)
    (hmerges : Merges text.toList more.toList) :
    ∃ rest, lines more = "" :: rest ∧ lines (text ++ more) = lines text ++ rest := by
  obtain ⟨back, hback⟩ := List.head?_eq_some_iff.mp hmerges.2
  refine ⟨(splitLines back).map String.ofList, ?_, ?_⟩
  · rw [lines, hback, ← List.nil_append ('\n' :: back), splitLines_append_newline .nil]
    rfl
  · rw [lines, String.toList_append, splitLines_append h, pastSeam, if_pos hmerges, hback,
      List.tail_cons, List.map_append, lines]

end BootConfig.Text
