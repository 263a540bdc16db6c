import BootConfig.Proofs.Text.Line

/-!
# Texts of complete lines

A text that is written line by line holds one line feed for each line, ends with one, and holds no
carriage return. So whoever reads it, by line feeds alone or by any terminator, finds these lines.
-/

namespace BootConfig.Text

/-- A text consists of complete lines: it is split into them, each of them has a line feed behind
it, and there is no other terminator. -/
structure ConsistsOf (text : String) (written : List String) : Prop where
  not_mem_return : '\r' ∉ text.toList
  getLast?_eq : text.toList.getLast? = some '\n'
  count_newline : text.toList.count '\n' = written.length
  lines_eq : lines text = written

private theorem IsLine.not_mem {cs : List Char} (h : IsLine cs) {c : Char}
    (hc : isTerminator c = true) :
    c ∉ cs := by
  intro hm
  rw [h c hm] at hc
  cases hc

private theorem toList_unlines_cons (line : String) (rest : List String) :
    (unlines (line :: rest)).toList = line.toList ++ '\n' :: (unlines rest).toList := by
  simp [unlines_cons]

variable {written : List String}

private theorem not_mem_return_unlines (h : ∀ line ∈ written, IsLine line.toList) :
    '\r' ∉ (unlines written).toList := by
  induction written with
  | nil => exact List.not_mem_nil
  | cons line rest ih =>
    obtain ⟨hline, hrest⟩ := List.forall_mem_cons.mp h
    rw [toList_unlines_cons, List.mem_append, List.mem_cons, not_or, not_or]
    exact ⟨hline.not_mem rfl, by decide, ih hrest⟩

private theorem count_newline_unlines (h : ∀ line ∈ written, IsLine line.toList) :
    (unlines written).toList.count '\n' = written.length := by
  induction written with
  | nil => rfl
  | cons line rest ih =>
    obtain ⟨hline, hrest⟩ := List.forall_mem_cons.mp h
    rw [toList_unlines_cons, List.count_append, List.count_cons_self, ih hrest,
      List.count_eq_zero.mpr (hline.not_mem rfl), Nat.zero_add, List.length_cons]

private theorem getLast?_unlines (h : written ≠ []) :
    (unlines written).toList.getLast? = some '\n' := by
  induction written with
  | nil => exact (h rfl).elim
  | cons line rest ih =>
    rw [toList_unlines_cons, List.getLast?_append, List.getLast?_cons, Option.some_or]
    cases rest with
    | nil => rfl
    | cons next rest => rw [ih (List.cons_ne_nil _ _), Option.getD_some]

/-- A text of lines consists of these lines. -/
theorem consistsOf_unlines (hne : written ≠ []) (h : ∀ line ∈ written, IsLine line.toList) :
    ConsistsOf (unlines written) written :=
  ⟨not_mem_return_unlines h, getLast?_unlines hne, count_newline_unlines h, lines_unlines h⟩

/-! ### First words -/

/-- Does a line start with a word? -/
def startsWith (word line : String) : Bool :=
  word.toList.isPrefixOf line.toList

/-- A line starts with what is put in front of it. -/
theorem startsWith_append (word rest : String) : startsWith word (word ++ rest) = true := by
  rw [startsWith, List.isPrefixOf_iff_prefix, String.toList_append]
  exact List.prefix_append _ _

/-- A line starts with one of two words only, if neither word starts with the other. -/
theorem startsWith_eq_false {word other line : String} (h : startsWith other line = true)
    (hword : startsWith word other = false) (hother : startsWith other word = false) :
    startsWith word line = false := by
  rw [Bool.eq_false_iff] at hword hother ⊢
  rw [startsWith, ne_eq, List.isPrefixOf_iff_prefix] at *
  intro hline
  exact (List.prefix_or_prefix_of_prefix hline h).elim hword hother

end BootConfig.Text
