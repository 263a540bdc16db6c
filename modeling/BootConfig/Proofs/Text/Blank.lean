import Mathlib.Data.List.DropRight
import BootConfig.Text.Blank

/-!
# What trimming keeps

Trimming takes blanks from the end until it meets a character that is none. So everything up to
such a character is kept, and what was trimmed once has nothing left to trim.
-/

namespace BootConfig.Text

private theorem trimEnd_eq_rdropWhile (cs : List Char) : trimEnd cs = cs.rdropWhile isBlank :=
  rfl

/-- What was trimmed has nothing left to trim. -/
theorem trimEnd_trimEnd (cs : List Char) : trimEnd (trimEnd cs) = trimEnd cs := by
  simp only [trimEnd_eq_rdropWhile, List.rdropWhile_idempotent]

/-- What is left after trimming was there before. -/
theorem mem_of_mem_trimEnd {c : Char} {cs : List Char} (h : c ∈ trimEnd cs) : c ∈ cs := by
  rw [trimEnd_eq_rdropWhile] at h
  exact (List.rdropWhile_prefix isBlank cs).subset h

/-- Trimming stops at a character that is not blank. -/
theorem trimEnd_append_cons {c : Char} (hc : isBlank c = false) (front back : List Char) :
    trimEnd (front ++ c :: back) = front ++ c :: trimEnd back := by
  have hstop : (c :: front.reverse).dropWhile isBlank = c :: front.reverse := by
    rw [List.dropWhile_cons, hc, if_neg Bool.false_ne_true]
  rw [trimEnd, trimEnd, List.reverse_append, List.reverse_cons, List.append_assoc,
    List.singleton_append, List.dropWhile_append]
  split
  · next h =>
    rw [List.isEmpty_iff.mp h, hstop, List.reverse_cons, List.reverse_reverse, List.reverse_nil]
  · rw [List.reverse_append, List.reverse_cons, List.reverse_reverse, List.append_assoc,
      List.singleton_append]

/-- Blanks that are put at the end are trimmed with those before them. -/
theorem trimEnd_append {padding : List Char} (h : ∀ c ∈ padding, isBlank c = true)
    (cs : List Char) : trimEnd (cs ++ padding) = trimEnd cs := by
  have hreverse : ∀ c ∈ padding.reverse, isBlank c = true :=
    fun c hc ↦ h c (List.mem_reverse.mp hc)
  rw [trimEnd, List.reverse_append, List.dropWhile_append_of_pos hreverse, trimEnd]

/-- Characters of which the last one is no blank. -/
def Trimmed (cs : List Char) : Prop :=
  ∀ c, cs.getLast? = some c → isBlank c = false

/-- It can be decided whether characters are trimmed. -/
instance (cs : List Char) : Decidable (Trimmed cs) :=
  decidable_of_iff (cs.getLast?.all (!isBlank ·) = true) (by simp [Trimmed, Option.all_eq_true])

/-- Trimming leaves alone what does not end with a blank. -/
theorem trimEnd_eq_self_iff {cs : List Char} : trimEnd cs = cs ↔ Trimmed cs := by
  rw [trimEnd_eq_rdropWhile, List.rdropWhile_eq_self_iff, Trimmed]
  constructor
  · intro h c hc
    obtain ⟨hne, rfl⟩ := List.mem_getLast?_eq_getLast hc
    exact Bool.eq_false_iff.mpr (h hne)
  · intro h hne
    exact Bool.eq_false_iff.mp (h _ (List.getLast?_eq_some_getLast hne))

/-- Trimming keeps what blanks stand behind, if that does not end with a blank itself. -/
theorem trimEnd_eq_iff {cs kept : List Char} :
    trimEnd cs = kept ↔
      Trimmed kept ∧ ∃ blanks, (∀ c ∈ blanks, isBlank c = true) ∧ cs = kept ++ blanks := by
  constructor
  · rintro rfl
    refine ⟨trimEnd_eq_self_iff.mp (trimEnd_trimEnd cs), _, ?_, (trimEnd_append_blanks cs).symm⟩
    exact fun c hc ↦ List.mem_takeWhile_imp (List.mem_reverse.mp hc)
  · rintro ⟨hkept, blanks, hblanks, rfl⟩
    rw [trimEnd_append hblanks, trimEnd_eq_self_iff.mpr hkept]

/-- Trimming keeps every character that is not blank. -/
theorem mem_trimEnd {c : Char} (hc : isBlank c = false) {cs : List Char} :
    c ∈ trimEnd cs ↔ c ∈ cs := by
  refine ⟨mem_of_mem_trimEnd, ?_⟩
  intro h
  obtain ⟨front, back, rfl⟩ := List.append_of_mem h
  rw [trimEnd_append_cons hc]
  exact List.mem_append_right _ List.mem_cons_self

end BootConfig.Text
