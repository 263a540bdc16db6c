import BootConfig.Text.Line

/-!
# Lines and their terminators

No line of a text holds a terminator, and a line that is written with a line feed behind it is read
as that line.
-/

namespace BootConfig.Text

/-- Characters that stand on one line: no terminator is among them. -/
def IsLine (cs : List Char) : Prop :=
  ∀ c ∈ cs, isTerminator c = false

/-- It can be decided whether characters are a line. -/
instance (cs : List Char) : Decidable (IsLine cs) :=
  List.decidableBAll _ cs

namespace IsLine

variable {cs ds : List Char}

/-- No characters stand on one line. -/
theorem nil : IsLine [] :=
  fun _ h ↦ (List.not_mem_nil h).elim

/-- A character that is no terminator may be put in front of a line. -/
theorem cons {c : Char} (h : IsLine cs) (hc : isTerminator c = false) : IsLine (c :: cs) := by
  intro d hd
  rcases List.mem_cons.mp hd with rfl | hd
  · exact hc
  · exact h d hd

/-- Two parts stand on one line if each of them does. -/
theorem append (hc : IsLine cs) (hd : IsLine ds) : IsLine (cs ++ ds) :=
  fun c h ↦ (List.mem_append.mp h).elim (hc c) (hd c)

/-- What is taken from a line stands on one line. -/
theorem mono (h : IsLine cs) (hsub : ds ⊆ cs) : IsLine ds :=
  fun c hc ↦ h c (hsub hc)

/-- A line that is read backwards stands on one line. -/
theorem reverse (h : IsLine cs) : IsLine cs.reverse :=
  h.mono fun _ hc ↦ List.mem_reverse.mp hc

end IsLine

/-! ### Splitting -/

private theorem linesFrom_cons {c : Char} (hc : isTerminator c = false) (read rest : List Char) :
    linesFrom read (c :: rest) = linesFrom (c :: read) rest := by
  rw [linesFrom]
  · rw [if_neg (by simp [hc])]
  · rintro _ rfl
    cases hc

private theorem linesFrom_newline (read rest : List Char) :
    linesFrom read ('\n' :: rest) = read.reverse :: linesFrom [] rest := by
  rw [linesFrom]
  · rfl
  · nofun

/-- What stands on one line is read as part of the current line. -/
theorem linesFrom_append {cs : List Char} (h : IsLine cs) (read rest : List Char) :
    linesFrom read (cs ++ rest) = linesFrom (cs.reverse ++ read) rest := by
  induction cs generalizing read with
  | nil => rfl
  | cons c cs ih =>
    rw [List.cons_append, linesFrom_cons (h c List.mem_cons_self),
      ih fun d hd ↦ h d (List.mem_cons_of_mem _ hd)]
    simp

/-- A line with a line feed behind it is the first line. -/
theorem splitLines_append_newline {cs : List Char} (h : IsLine cs) (rest : List Char) :
    splitLines (cs ++ '\n' :: rest) = cs :: splitLines rest := by
  rw [splitLines, linesFrom_append h, linesFrom_newline, List.append_nil, List.reverse_reverse,
    splitLines]

private theorem isLine_of_mem_linesFrom {read cs line : List Char} (hread : IsLine read)
    (h : line ∈ linesFrom read cs) : IsLine line := by
  fun_induction linesFrom read cs with
  | case1 => exact (List.not_mem_nil h).elim
  | case2 read =>
    rw [List.mem_singleton.mp h]
    exact hread.reverse
  | case3 read rest ih =>
    rcases List.mem_cons.mp h with rfl | h
    · exact hread.reverse
    · exact ih .nil h
  | case4 read c rest _ _ ih =>
    rcases List.mem_cons.mp h with rfl | h
    · exact hread.reverse
    · exact ih .nil h
  | case5 read c rest _ hc ih => exact ih (hread.cons (Bool.eq_false_iff.mpr hc)) h

/-- No line of a sequence of characters holds a terminator. -/
theorem isLine_of_mem_splitLines {cs line : List Char} (h : line ∈ splitLines cs) :
    IsLine line :=
  isLine_of_mem_linesFrom .nil h

/-! ### Texts -/

/-- A line with a line feed behind it is the first line of a text. -/
theorem lines_append_newline {line : String} (h : IsLine line.toList) (rest : String) :
    lines (line ++ "\n" ++ rest) = line :: lines rest := by
  have hsplit := splitLines_append_newline h rest.toList
  rw [lines, String.toList_append, String.toList_append, List.append_assoc]
  change (splitLines (line.toList ++ '\n' :: rest.toList)).map String.ofList = _
  rw [hsplit, List.map_cons, String.ofList_toList, lines]

/-- The text of lines, with a line feed behind each of them. -/
def unlines (written : List String) : String :=
  String.join (written.map (· ++ "\n"))

/-- The text of lines starts with the first of them. -/
theorem unlines_cons (line : String) (rest : List String) :
    unlines (line :: rest) = line ++ "\n" ++ unlines rest := by
  rw [unlines, List.map_cons, String.join_cons, unlines]

/-- The text of lines continues with that of the lines behind them. -/
theorem unlines_append (written more : List String) :
    unlines (written ++ more) = unlines written ++ unlines more := by
  rw [unlines, List.map_append, String.join_append, unlines, unlines]

/-- Lines that are written are read back. -/
theorem lines_unlines {written : List String} (h : ∀ line ∈ written, IsLine line.toList) :
    lines (unlines written) = written := by
  induction written with
  | nil => rfl
  | cons line rest ih =>
    rw [unlines_cons, lines_append_newline (h line List.mem_cons_self),
      ih fun l hl ↦ h l (List.mem_cons_of_mem _ hl)]

/-- No line of a text holds a terminator. -/
theorem isLine_of_mem_lines {text line : String} (h : line ∈ lines text) :
    IsLine line.toList := by
  obtain ⟨cs, hcs, rfl⟩ := List.mem_map.mp h
  rw [String.toList_ofList]
  exact isLine_of_mem_splitLines hcs

end BootConfig.Text
