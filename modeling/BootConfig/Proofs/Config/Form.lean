import BootConfig.Proofs.Config.Line

/-!
# The form of a line

What is read from a line can be told from its form: whether it is a comment, how many `=` it has,
and what stands before and behind them. Reading a line and writing an assignment on a line undo
each other, up to the blanks at the end.
-/

namespace BootConfig.Config

open BootConfig.Text

variable {line : String} {a : Assignment}

/-- A line says nothing exactly if it has no `=` or is a comment. -/
theorem parseLine_eq_ok_none_iff :
    parseLine line = .ok none ↔ '=' ∉ line.toList ∨ line.toList.head? = some '#' := by
  rw [parseLine_eq, ← List.count_eq_zero]
  by_cases hmalformed : Malformed line
  · rw [if_pos hmalformed]
    obtain ⟨hcomment, hmore⟩ := hmalformed
    constructor
    · intro h
      cases h
    · rintro (hnone | hmark)
      · omega
      · exact (hcomment hmark).elim
  · rw [if_neg hmalformed, Except.ok.injEq, ← Option.not_isSome_iff_eq_none, isSome_assignmentOf?,
      decide_eq_true_eq]
    unfold Malformed at hmalformed
    unfold Assigns
    by_cases hmark : line.toList.head? = some '#'
    · simp [hmark]
    · simp only [ne_eq, hmark, not_false_eq_true, true_and, or_false] at hmalformed ⊢
      omega

/-- A line is refused exactly if it is malformed. -/
theorem parseLine_eq_error_iff :
    parseLine line = .error .multipleSeparators ↔ Malformed line := by
  rw [parseLine_eq]
  split <;> simp [*]

/-- An assignment is read from a line exactly if the line has the form for it. -/
theorem parseLine_eq_ok_some_iff : parseLine line = .ok (some a) ↔ Makes line a := by
  rw [← assignmentOf?_eq_some_iff]
  constructor
  · intro h
    rw [parseLine_eq] at h
    split at h
    · cases h
    · exact Except.ok.inj h
  · exact parseLine_of_assignmentOf?

private theorem Makes.head?_name_ne (h : Makes line a) : a.name.toList.head? ≠ some '#' := by
  obtain ⟨blanks, -, hline⟩ := h.exists_blanks
  have hcomment := h.not_comment
  rw [hline] at hcomment
  intro hmark
  apply hcomment
  rw [List.head?_append, hmark, Option.some_or]

/-- What is read from a line is decided by its form, and can be written and read again. A line
without `=` and a comment say nothing; any other line with more than one `=` is malformed; and from
one with a single `=` the name before it is read as it stands, and the raw value behind it without
the blanks at the end of the line. So blanks that are added to a line change nothing, an assignment
that was read is read from its own line again, and so is every assignment whose name starts no
comment, that has no further `=`, and whose raw value does not end with a blank. -/
theorem parseLine_follows_form (line : String) :
    (parseLine line = .ok none ↔ '=' ∉ line.toList ∨ line.toList.head? = some '#') ∧
    (parseLine line = .error .multipleSeparators ↔
      line.toList.head? ≠ some '#' ∧ 2 ≤ line.toList.count '=') ∧
    (∀ a, parseLine line = .ok (some a) ↔ Makes line a) ∧
    (∀ blanks : String, (∀ c ∈ blanks.toList, isBlank c = true) →
      parseLine (line ++ blanks) = parseLine line) ∧
    (∀ a, parseLine line = .ok (some a) → parseLine (a.name ++ "=" ++ a.raw) = .ok (some a)) ∧
    ∀ name raw : String, '=' ∉ name.toList → name.toList.head? ≠ some '#' → '=' ∉ raw.toList →
      Trimmed raw.toList → parseLine (name ++ "=" ++ raw) = .ok (some ⟨name, raw⟩) := by
  refine ⟨parseLine_eq_ok_none_iff, parseLine_eq_error_iff, fun a ↦ parseLine_eq_ok_some_iff,
    ?_, ?_, ?_⟩
  · intro blanks hblanks
    rw [← parseLine_append hblanks line, String.ofList_append, String.ofList_toList,
      String.ofList_toList]
  · intro a hread
    have hmakes := parseLine_eq_ok_some_iff.mp hread
    exact parseLine_eq_ok_some_iff.mpr (Assignment.makes_line hmakes.head?_name_ne
      hmakes.not_mem_name hmakes.not_mem_raw hmakes.trimmed_raw)
  · intro name raw hname hcomment hraw htrimmed
    have hmakes := Assignment.makes_line (a := ⟨name, raw⟩) hcomment hname hraw htrimmed
    exact parseLine_eq_ok_some_iff.mpr hmakes

/-- Terminators and spaces count within a line and before the `=`, but not at the end, and a mark
that is not the first character starts no comment. -/
theorem parseLine_follows_form_sample :
    Makes " #A\r\n =\t b \x1d\r" ⟨" #A\r\n ", "\t b"⟩ ∧
      parseLine " #A\r\n =\t b \x1d\r" = .ok (some ⟨" #A\r\n ", "\t b"⟩) ∧
      parseLine (" #A\r\n =\t b \x1d\r" ++ "\u2028\n") = .ok (some ⟨" #A\r\n ", "\t b"⟩) ∧
      parseLine " #A\r\n =\t b" = .ok (some ⟨" #A\r\n ", "\t b"⟩) ∧
      parseLine "=" = .ok (some ⟨"", ""⟩) := by
  have hmakes : Makes " #A\r\n =\t b \x1d\r" ⟨" #A\r\n ", "\t b"⟩ :=
    ⟨by decide, by decide, by decide, by decide, [' ', '\x1d', '\r'],
      List.all_eq_true.mp (by decide), by decide⟩
  obtain ⟨-, -, hread, hpadded, hagain, hwritten⟩ := parseLine_follows_form " #A\r\n =\t b \x1d\r"
  have hassignment := (hread _).mpr hmakes
  refine ⟨hmakes, hassignment, ?_, hagain _ hassignment, ?_⟩
  · rw [hpadded "\u2028\n" (List.all_eq_true.mp (by decide)), hassignment]
  · exact hwritten "" "" (by decide) (by decide) (by decide) (by decide)

end BootConfig.Config
