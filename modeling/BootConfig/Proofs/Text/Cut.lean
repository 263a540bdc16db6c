import Mathlib.Data.List.TakeWhile

/-!
# Cutting at a character

What stands before and behind the first place of a character. If characters without it are followed
by it, they are what stands before it and the rest is what stands behind.
-/

namespace BootConfig.Text

/-- What stands before the first place of a character; everything if it has none. -/
def before (c : Char) (cs : List Char) : List Char :=
  cs.takeWhile (· != c)

/-- What stands behind the first place of a character; nothing if it has none. -/
def behind (c : Char) (cs : List Char) : List Char :=
  (cs.dropWhile (· != c)).drop 1

variable {c : Char} {front : List Char}

private theorem forall_bne (h : c ∉ front) : ∀ d ∈ front, (d != c) = true := by
  intro d hd
  rw [bne_iff_ne]
  rintro rfl
  exact h hd

/-- What is followed by the first place of a character stands before it. -/
theorem before_append_cons (h : c ∉ front) (back : List Char) :
    before c (front ++ c :: back) = front := by
  rw [before, List.takeWhile_append_of_pos (forall_bne h), List.takeWhile_cons, bne_self_eq_false,
    if_neg Bool.false_ne_true, List.append_nil]

/-- What follows the first place of a character stands behind it. -/
theorem behind_append_cons (h : c ∉ front) (back : List Char) :
    behind c (front ++ c :: back) = back := by
  rw [behind, List.dropWhile_append_of_pos (forall_bne h), List.dropWhile_cons, bne_self_eq_false,
    if_neg Bool.false_ne_true, List.drop_succ_cons, List.drop_zero]

/-- Everything stands before a character that has no place. -/
theorem before_of_notMem (h : c ∉ front) : before c front = front :=
  List.takeWhile_eq_self_iff.mpr (forall_bne h)

/-- A character can be found at its first place. -/
theorem eq_before_append_cons {cs : List Char} (h : c ∈ cs) :
    cs = before c cs ++ c :: behind c cs := by
  obtain ⟨front, back, rfl, hf⟩ := List.eq_append_cons_of_mem h
  rw [before_append_cons hf, behind_append_cons hf]

/-- A character does not stand before its first place. -/
theorem not_mem_before (c : Char) (cs : List Char) : c ∉ before c cs := by
  intro h
  have hne := List.mem_takeWhile_imp h
  rw [bne_self_eq_false] at hne
  cases hne

end BootConfig.Text
