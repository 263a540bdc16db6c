import BootConfig.Config.Generate
import BootConfig.Proofs.Config.Line

/-!
# What a configuration says

Reading follows the rule for lines up to the first line that is malformed. The entries are what the
lines before it say, so the assignments are those of the lines, in their order.
-/

namespace BootConfig.Config

/-- What a line says that is not malformed. -/
def Entry.ofLine (line : String) : Entry :=
  match assignmentOf? line with
  | none => .skipped
  | some a => .assigned a

private theorem Entry.assignment?_ofLine (line : String) :
    (ofLine line).assignment? = assignmentOf? line := by
  rw [ofLine]
  cases assignmentOf? line <;> rfl

/-- The assignments that lines make, in order. -/
def assignmentsOf (lines : List String) : List Assignment :=
  lines.filterMap assignmentOf?

/-- Lines make as many assignments as there are lines that make one. -/
theorem length_assignmentsOf (lines : List String) :
    (assignmentsOf lines).length = lines.countP fun line ↦ decide (Assigns line) := by
  simp only [assignmentsOf, List.length_filterMap_eq_countP, isSome_assignmentOf?]

/-- The assignments of the lines of a text are clean. -/
theorem clean_of_mem_assignmentsOf {text : String} {a : Assignment}
    (h : a ∈ assignmentsOf (Text.lines text)) : a.Clean := by
  obtain ⟨line, hline, ha⟩ := List.mem_filterMap.mp h
  exact clean_of_assignmentOf? (Text.isLine_of_mem_lines hline) ha

namespace Reading

/-- A malformed line ends the reading. -/
theorem ofLines_cons_of_malformed {line : String} (h : Malformed line) (rest : List String) :
    ofLines (line :: rest) = ⟨[], some .multipleSeparators⟩ := by
  rw [ofLines, parseLine_eq, if_pos h]

/-- The entry of any other line is put in front of what the rest says. -/
theorem ofLines_cons_of_not_malformed {line : String} (h : ¬Malformed line)
    (rest : List String) : ofLines (line :: rest) = cons (.ofLine line) (ofLines rest) := by
  rw [ofLines, parseLine_eq, if_neg h, Entry.ofLine]
  cases assignmentOf? line <;> rfl

/-- Lines none of which is malformed are read before what follows them. -/
theorem ofLines_append {front : List String} (h : ∀ line ∈ front, ¬Malformed line)
    (rest : List String) :
    ofLines (front ++ rest) =
      ⟨front.map Entry.ofLine ++ (ofLines rest).entries, (ofLines rest).fault⟩ := by
  induction front with
  | nil => rfl
  | cons line front ih =>
    rw [List.cons_append, ofLines_cons_of_not_malformed (h line List.mem_cons_self),
      ih fun l hl ↦ h l (List.mem_cons_of_mem _ hl)]
    rfl

/-- Lines none of which is malformed are read to their end. -/
theorem ofLines_of_not_malformed {lines : List String} (h : ∀ line ∈ lines, ¬Malformed line) :
    ofLines lines = ⟨lines.map Entry.ofLine, none⟩ := by
  have happend := ofLines_append h []
  rwa [List.append_nil, ofLines, List.append_nil] at happend

/-- Lines are read up to the first that is malformed. -/
theorem ofLines_of_malformed {lines : List String} {k : Nat} {line : String}
    (hk : lines[k]? = some line) (hline : Malformed line)
    (hbefore : ∀ l ∈ lines.take k, ¬Malformed l) :
    ofLines lines = ⟨(lines.take k).map Entry.ofLine, some .multipleSeparators⟩ := by
  obtain ⟨hlt, rfl⟩ := List.getElem?_eq_some_iff.mp hk
  conv_lhs => rw [← List.take_append_drop k lines, List.drop_eq_getElem_cons hlt]
  rw [ofLines_append hbefore, ofLines_cons_of_malformed hline, List.append_nil]

/-- Nothing is wrong with lines exactly if none of them is malformed. -/
theorem fault_ofLines_eq_none_iff (lines : List String) :
    (ofLines lines).fault = none ↔ ∀ line ∈ lines, ¬Malformed line := by
  constructor
  · induction lines with
    | nil => exact fun _ _ h ↦ (List.not_mem_nil h).elim
    | cons line rest ih =>
      intro h
      by_cases hm : Malformed line
      · rw [ofLines_cons_of_malformed hm] at h
        cases h
      · rw [ofLines_cons_of_not_malformed hm] at h
        exact List.forall_mem_cons.mpr ⟨hm, ih h⟩
  · intro h
    rw [ofLines_of_not_malformed h]

/-- The assignments of entries of lines are those of the lines. -/
theorem assignments_map_ofLine (lines : List String) (fault : Option LineError) :
    (Reading.mk (lines.map Entry.ofLine) fault).assignments = assignmentsOf lines := by
  simp only [assignments, List.filterMap_map, assignmentsOf, Function.comp_def,
    Entry.assignment?_ofLine]

private theorem isPrefix_assignments_ofLines (lines : List String) :
    (ofLines lines).assignments <+: assignmentsOf lines := by
  induction lines with
  | nil => exact List.prefix_refl _
  | cons line rest ih =>
    by_cases hm : Malformed line
    · rw [ofLines_cons_of_malformed hm]
      exact List.nil_prefix
    · rw [ofLines_cons_of_not_malformed hm, assignments, assignmentsOf, cons, List.filterMap_cons,
        List.filterMap_cons, Entry.assignment?_ofLine]
      cases assignmentOf? line with
      | none => exact ih
      | some a => exact List.cons_prefix_cons.mpr ⟨rfl, ih⟩

/-- The assignments that a text makes are clean. -/
theorem clean_of_mem_assignments {text : String} {a : Assignment}
    (h : a ∈ (ofText text).assignments) : a.Clean :=
  clean_of_mem_assignmentsOf ((isPrefix_assignments_ofLines _).subset h)

end Reading

end BootConfig.Config
