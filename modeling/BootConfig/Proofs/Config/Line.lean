import BootConfig.Config.Assignment
import BootConfig.Proofs.Text.Blank
import BootConfig.Proofs.Text.Cut
import BootConfig.Proofs.Text.Line

/-!
# What a line says

The rule for lines, by their first character and the number of `=` in them: a comment or a line
without `=` says nothing, a line with one `=` makes an assignment, and a line with more than one is
malformed. Reading a line follows this rule.
-/

namespace BootConfig.Config

open BootConfig.Text

/-- A line is malformed if it is no comment and has more than one `=`. -/
def Malformed (line : String) : Prop :=
  line.toList.head? ≠ some '#' ∧ 2 ≤ line.toList.count '='

/-- A line makes an assignment if it is no comment and has exactly one `=`. -/
def Assigns (line : String) : Prop :=
  line.toList.head? ≠ some '#' ∧ line.toList.count '=' = 1

/-- It can be decided whether a line is malformed. -/
instance (line : String) : Decidable (Malformed line) :=
  inferInstanceAs (Decidable (_ ∧ _))

/-- It can be decided whether a line makes an assignment. -/
instance (line : String) : Decidable (Assigns line) :=
  inferInstanceAs (Decidable (_ ∧ _))

/-- The assignment that a line makes. What stands behind the `=`, without the blanks at its end, is
assigned to what stands before it. -/
def assignmentOf? (line : String) : Option Assignment :=
  if Assigns line then
    some ⟨String.ofList (before '=' line.toList),
      String.ofList (trimEnd (behind '=' line.toList))⟩
  else none

/-- A line has an assignment exactly if it makes one. -/
theorem isSome_assignmentOf? (line : String) :
    (assignmentOf? line).isSome = decide (Assigns line) := by
  by_cases h : Assigns line <;> simp [assignmentOf?, h]

/-- Skipped are the lines without `=` and the comments. -/
theorem isSkipped_iff (cs : List Char) :
    isSkipped cs = true ↔ cs.count '=' = 0 ∨ cs.head? = some '#' := by
  rw [isSkipped, Bool.or_eq_true, Bool.not_eq_true', separator, commentMark, beq_iff_eq,
    List.count_eq_zero, ← List.contains_iff_mem, Bool.not_eq_true]

private theorem trimEnd_eq_before_append_cons {cs : List Char} (h : '=' ∈ cs) :
    trimEnd cs = before '=' cs ++ '=' :: trimEnd (behind '=' cs) := by
  conv_lhs => rw [eq_before_append_cons h]
  exact trimEnd_append_cons (by decide) _ _

private theorem parseLine_of_not_skipped {line : String} (h : ¬isSkipped line.toList = true)
    (hsep : '=' ∈ line.toList) :
    parseLine line =
      if '=' ∈ behind '=' line.toList then .error .multipleSeparators
      else .ok (some ⟨String.ofList (before '=' line.toList),
        String.ofList (trimEnd (behind '=' line.toList))⟩) := by
  have hfirst := not_mem_before '=' line.toList
  have hname := before_append_cons hfirst (trimEnd (behind '=' line.toList))
  have hraw := behind_append_cons hfirst (trimEnd (behind '=' line.toList))
  rw [before] at hname
  rw [behind] at hraw
  simp only [parseLine, if_neg h, separator, trimEnd_eq_before_append_cons hsep, hname, hraw,
    List.contains_iff_mem, mem_trimEnd (c := '=') (by decide)]

/-- Reading a line follows the rule for lines. -/
theorem parseLine_eq (line : String) :
    parseLine line =
      if Malformed line then .error .multipleSeparators else .ok (assignmentOf? line) := by
  by_cases hskip : isSkipped line.toList = true
  · have hnot : ¬Malformed line ∧ ¬Assigns line := by
      rw [isSkipped_iff] at hskip
      unfold Malformed Assigns
      grind
    rw [parseLine, if_pos hskip, if_neg hnot.1, assignmentOf?, if_neg hnot.2]
  · have hrule := hskip
    rw [isSkipped_iff, not_or] at hrule
    obtain ⟨hsep, hcomment⟩ := hrule
    have hmem : '=' ∈ line.toList := List.count_pos_iff.mp (Nat.pos_of_ne_zero hsep)
    have hcount : line.toList.count '=' = (behind '=' line.toList).count '=' + 1 := by
      conv_lhs => rw [eq_before_append_cons hmem]
      rw [List.count_append, List.count_eq_zero.mpr (not_mem_before _ _), List.count_cons_self,
        Nat.zero_add]
    rw [parseLine_of_not_skipped hskip hmem]
    by_cases hmore : '=' ∈ behind '=' line.toList
    · have hpos := List.count_pos_iff.mpr hmore
      rw [if_pos hmore, if_pos ⟨hcomment, by omega⟩]
    · have hzero := List.count_eq_zero.mpr hmore
      have hnot : ¬Malformed line := fun h ↦ by have := h.2; omega
      rw [if_neg hmore, if_neg hnot, assignmentOf?, if_pos ⟨hcomment, by omega⟩]

private theorem separator_notMem {blanks : List Char} (h : ∀ c ∈ blanks, isBlank c = true) :
    '=' ∉ blanks := by
  intro hmem
  have hblank := h '=' hmem
  revert hblank
  decide

private theorem isSkipped_append {padding : List Char} (h : ∀ c ∈ padding, isBlank c = true)
    (cs : List Char) : isSkipped (cs ++ padding) = isSkipped cs := by
  have hsep := separator_notMem h
  cases cs with
  | nil => simp [isSkipped, separator, hsep]
  | cons c cs => simp [isSkipped, separator, hsep]

/-- Blanks at the end of a line do not count. -/
theorem parseLine_append {padding : List Char} (h : ∀ c ∈ padding, isBlank c = true)
    (line : String) :
    parseLine (String.ofList (line.toList ++ padding)) = parseLine line := by
  simp only [parseLine, String.toList_ofList, isSkipped_append h, trimEnd_append h]

/-- A line that makes an assignment is not malformed. -/
theorem Assigns.not_malformed {line : String} (h : Assigns line) : ¬Malformed line := by
  rintro ⟨-, hmore⟩
  rw [h.2] at hmore
  exact absurd hmore (by decide)

/-- A line that makes an assignment is read as that. -/
theorem parseLine_of_assignmentOf? {line : String} {a : Assignment}
    (h : assignmentOf? line = some a) : parseLine line = .ok (some a) := by
  have hassigns : Assigns line := by
    have hsome := isSome_assignmentOf? line
    rw [h] at hsome
    exact of_decide_eq_true hsome.symm
  rw [parseLine_eq, if_neg hassigns.not_malformed, h]

/-! ### The assignments of lines -/

/-- The form of a line that makes an assignment: it is no comment, the name stands before its only
`=`, and behind that stands the raw value, which does not end with a blank, and then nothing but
blanks. -/
structure Makes (line : String) (a : Assignment) : Prop where
  not_comment : line.toList.head? ≠ some '#'
  not_mem_name : '=' ∉ a.name.toList
  not_mem_raw : '=' ∉ a.raw.toList
  trimmed_raw : Trimmed a.raw.toList
  exists_blanks : ∃ blanks, (∀ c ∈ blanks, isBlank c = true) ∧
    line.toList = a.name.toList ++ '=' :: (a.raw.toList ++ blanks)

/-- A line makes an assignment exactly if it has the form for it. -/
theorem assignmentOf?_eq_some_iff {line : String} {a : Assignment} :
    assignmentOf? line = some a ↔ Makes line a := by
  constructor
  · intro h
    rw [assignmentOf?] at h
    split at h
    · next hassigns =>
      cases h
      have hmem : '=' ∈ line.toList := List.count_pos_iff.mp (by rw [hassigns.2]; decide)
      have hsplit := eq_before_append_cons hmem
      have hcount := hassigns.2
      rw [hsplit, List.count_append, List.count_cons_self] at hcount
      have hbehind : '=' ∉ behind '=' line.toList := List.count_eq_zero.mp (by omega)
      obtain ⟨htrimmed, blanks, hblanks, hrest⟩ := trimEnd_eq_iff.mp (Eq.refl (trimEnd _))
      refine ⟨hassigns.1, ?_, ?_, ?_, blanks, hblanks, ?_⟩ <;> simp only [String.toList_ofList]
      · exact not_mem_before _ _
      · exact fun hc ↦ hbehind (mem_of_mem_trimEnd hc)
      · exact htrimmed
      · rw [← hrest]
        exact hsplit
    · cases h
  · rintro ⟨hcomment, hname, hraw, htrimmed, blanks, hblanks, hline⟩
    have hassigns : Assigns line := by
      refine ⟨hcomment, ?_⟩
      rw [hline, List.count_append, List.count_cons_self, List.count_append,
        List.count_eq_zero.mpr hname, List.count_eq_zero.mpr hraw,
        List.count_eq_zero.mpr (separator_notMem hblanks)]
    rw [assignmentOf?, if_pos hassigns, hline, before_append_cons hname, behind_append_cons hname,
      trimEnd_append hblanks, trimEnd_eq_self_iff.mpr htrimmed, String.ofList_toList,
      String.ofList_toList]

namespace Assignment

/-- What the assignments of lines have in common: name and value stand on one line and hold no `=`,
and the value has no blanks at its end. -/
structure Clean (a : Assignment) : Prop where
  name_isLine : IsLine a.name.toList
  raw_isLine : IsLine a.raw.toList
  not_mem_name : '=' ∉ a.name.toList
  not_mem_raw : '=' ∉ a.raw.toList
  trimEnd_raw : trimEnd a.raw.toList = a.raw.toList

private theorem toList_line (a : Assignment) :
    a.line.toList = a.name.toList ++ '=' :: a.raw.toList := by
  rw [line, String.toList_append, String.toList_append, List.append_assoc]
  rfl

/-- The line of an assignment has the form for it, if the name starts no comment, there is no other
`=`, and the raw value does not end with a blank. -/
theorem makes_line {a : Assignment} (hcomment : a.name.toList.head? ≠ some '#')
    (hname : '=' ∉ a.name.toList) (hraw : '=' ∉ a.raw.toList) (htrimmed : Trimmed a.raw.toList) :
    Makes a.line a := by
  refine ⟨?_, hname, hraw, htrimmed, [], List.forall_mem_nil _, ?_⟩
  · rw [toList_line]
    cases h : a.name.toList with
    | nil => exact fun he ↦ absurd (Option.some.inj he) (by decide)
    | cons c cs => rwa [h] at hcomment
  · rw [toList_line, List.append_nil]

/-- The line of an assignment whose name starts no comment makes that assignment. -/
theorem Clean.assignmentOf?_line {a : Assignment} (h : a.Clean)
    (hcomment : a.name.toList.head? ≠ some '#') : assignmentOf? a.line = some a :=
  assignmentOf?_eq_some_iff.mpr
    (makes_line hcomment h.not_mem_name h.not_mem_raw (trimEnd_eq_self_iff.mp h.trimEnd_raw))

end Assignment

/-- The assignment of a line is clean. -/
theorem clean_of_assignmentOf? {line : String} {a : Assignment} (hline : IsLine line.toList)
    (h : assignmentOf? line = some a) : a.Clean := by
  obtain ⟨-, hname, hraw, htrimmed, blanks, -, hform⟩ := assignmentOf?_eq_some_iff.mp h
  rw [hform] at hline
  refine ⟨hline.mono ?_, hline.mono ?_, hname, hraw, trimEnd_eq_self_iff.mpr htrimmed⟩
  · exact List.subset_append_left _ _
  · exact fun c hc ↦ List.mem_append_right _ (List.mem_cons_of_mem _ (List.mem_append_left _ hc))

end BootConfig.Config
