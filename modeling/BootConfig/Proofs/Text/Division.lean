import Mathlib.Logic.ExistsUnique
import BootConfig.Proofs.Text.Spelling

/-!
# Dividing a text into lines

Every text is a sequence of lines, each with what ends it, and only the last line may end with the
text. A carriage return that ends a line alone has no line feed behind it, so there is one such
division only, and splitting the text gives its lines.
-/

namespace BootConfig.Text

/-- A line and what ends it, if this is not the end of the text. -/
structure Segment where
  line : List Char
  ending : Option Terminator
  deriving DecidableEq

/-- The characters of a line and of what ends it. -/
def Segment.chars (segment : Segment) : List Char :=
  match segment.ending with
  | none => segment.line
  | some terminator => segment.line ++ terminator.chars

/-- The characters of lines one after the other. -/
def joined (segments : List Segment) : List Char :=
  segments.flatMap Segment.chars

/-- A text can be read as these lines: there is no terminator within a line, a line without one
behind it is the last and not empty, and a carriage return that ends a line alone does not stand
right before a line feed. -/
inductive IsDivision : List Segment → Prop where
  | nil : IsDivision []
  | last {line : List Char} (hline : IsLine line) (hne : line ≠ []) : IsDivision [⟨line, none⟩]
  | cons {line : List Char} {terminator : Terminator} {rest : List Segment}
      (hline : IsLine line) (hrest : IsDivision rest)
      (hapart : terminator = .carriageReturn → (joined rest).head? ≠ some '\n') :
      IsDivision (⟨line, some terminator⟩ :: rest)

/-- A terminator has characters. -/
theorem Terminator.chars_ne_nil (terminator : Terminator) : terminator.chars ≠ [] := by
  cases terminator <;> exact List.cons_ne_nil _ _

/-- The characters of a terminated line and the lines behind it. -/
theorem joined_cons (line : List Char) (terminator : Terminator) (rest : List Segment) :
    joined (⟨line, some terminator⟩ :: rest) = line ++ (terminator.chars ++ joined rest) := by
  rw [joined, List.flatMap_cons, Segment.chars, List.append_assoc, joined]

/-- The characters of a line that ends with the text. -/
theorem joined_last (line : List Char) : joined [⟨line, none⟩] = line := by
  rw [joined, List.flatMap_singleton, Segment.chars]

/-! ### Every text has a division -/

private theorem exists_isDivision_cons (terminator : Terminator) {line rest : List Char}
    (hline : IsLine line) (hrest : ∃ segments, IsDivision segments ∧ joined segments = rest)
    (hapart : terminator = .carriageReturn → rest.head? ≠ some '\n') :
    ∃ segments, IsDivision segments ∧ joined segments = line ++ (terminator.chars ++ rest) := by
  obtain ⟨segments, hdivision, rfl⟩ := hrest
  exact ⟨_, .cons hline hdivision hapart, joined_cons line terminator segments⟩

private theorem exists_isDivision_from {read cs : List Char} (hread : IsLine read) :
    ∃ segments, IsDivision segments ∧ joined segments = read.reverse ++ cs := by
  fun_induction linesFrom read cs with
  | case1 read hempty =>
    rw [List.isEmpty_iff] at hempty
    subst hempty
    exact ⟨[], .nil, rfl⟩
  | case2 read hempty =>
    have hne : read.reverse ≠ [] := by simpa using hempty
    exact ⟨[⟨read.reverse, none⟩], .last hread.reverse hne,
      (joined_last _).trans (List.append_nil _).symm⟩
  | case3 read rest ih =>
    apply exists_isDivision_cons .both hread.reverse (ih .nil)
    exact fun h ↦ absurd h (by decide)
  | case4 read c rest hnot hterminator ih =>
    rw [isTerminator, Bool.or_eq_true, beq_iff_eq, beq_iff_eq] at hterminator
    rcases hterminator with rfl | rfl
    · apply exists_isDivision_cons .lineFeed hread.reverse (ih .nil)
      exact fun h ↦ absurd h (by decide)
    · apply exists_isDivision_cons .carriageReturn hread.reverse (ih .nil)
      intro _ hhead
      obtain ⟨back, rfl⟩ := List.head?_eq_some_iff.mp hhead
      exact hnot back rfl rfl
  | case5 read c rest _ hterminator ih =>
    obtain ⟨segments, hdivision, hjoined⟩ := ih (hread.cons (Bool.eq_false_iff.mpr hterminator))
    exact ⟨segments, hdivision, by rw [hjoined, List.reverse_cons, List.append_assoc]; rfl⟩

/-- Every text can be divided. -/
theorem exists_isDivision (cs : List Char) :
    ∃ segments, IsDivision segments ∧ joined segments = cs :=
  exists_isDivision_from .nil

/-! ### There is one division only -/

/-- Splitting the characters of a division gives its lines. -/
theorem IsDivision.splitLines_joined {segments : List Segment} (h : IsDivision segments) :
    splitLines (joined segments) = segments.map Segment.line := by
  induction h with
  | nil => rfl
  | last hline hne => rw [joined_last, splitLines_of_isLine hline, if_neg hne]; rfl
  | cons hline _ hapart ih =>
    rw [joined_cons, splitLines_append_terminator hline hapart, ih, List.map_cons]

private theorem Terminator.chars_append_inj {first second : Terminator} {cs ds : List Char}
    (hfirst : first = .carriageReturn → cs.head? ≠ some '\n')
    (hsecond : second = .carriageReturn → ds.head? ≠ some '\n')
    (h : first.chars ++ cs = second.chars ++ ds) : first = second ∧ cs = ds := by
  cases first <;> cases second <;> simp_all [Terminator.chars]
  case both.carriageReturn =>
    subst h
    exact hsecond rfl

/-- Two divisions with the same characters are the same. -/
theorem IsDivision.eq_of_joined_eq {segments others : List Segment} (h : IsDivision segments)
    (ho : IsDivision others) (hjoined : joined segments = joined others) : segments = others := by
  -- The lines agree, since they are what splitting gives; what is left are the terminators.
  have hlines : segments.map Segment.line = others.map Segment.line := by
    rw [← h.splitLines_joined, ← ho.splitLines_joined, hjoined]
  induction h generalizing others with
  | nil => exact (List.map_eq_nil_iff.mp hlines.symm).symm
  | last hline hne =>
    cases ho with
    | nil => cases hlines
    | last hline' hne' =>
      cases hlines
      rfl
    | cons hline' hrest' hapart' =>
      obtain ⟨rfl, -⟩ := List.cons_eq_cons.mp hlines
      rw [joined_last, joined_cons, List.self_eq_append_right, List.append_eq_nil_iff] at hjoined
      exact (Terminator.chars_ne_nil _ hjoined.1).elim
  | cons hline hrest hapart ih =>
    cases ho with
    | nil => cases hlines
    | last hline' hne' =>
      obtain ⟨rfl, -⟩ := List.cons_eq_cons.mp hlines
      rw [joined_last, joined_cons, List.append_right_eq_self, List.append_eq_nil_iff] at hjoined
      exact (Terminator.chars_ne_nil _ hjoined.1).elim
    | cons hline' hrest' hapart' =>
      obtain ⟨rfl, hmore⟩ := List.cons_eq_cons.mp hlines
      rw [joined_cons, joined_cons, List.append_cancel_left_eq] at hjoined
      obtain ⟨rfl, hrests⟩ := Terminator.chars_append_inj hapart hapart' hjoined
      rw [ih hrest' hrests hmore]

/-- Every text is divided into lines with what ends them in exactly one way, and its lines are those
of this division. So lines that are written with terminators are read back, whatever they are. -/
theorem lines_are_those_of_division (text : String) :
    (∃! segments, IsDivision segments ∧ String.ofList (joined segments) = text) ∧
      ∀ segments, IsDivision segments → String.ofList (joined segments) = text →
        lines text = segments.map fun segment ↦ String.ofList segment.line := by
  constructor
  · obtain ⟨segments, hdivision, hjoined⟩ := exists_isDivision text.toList
    refine ⟨segments, ⟨hdivision, ?_⟩, ?_⟩
    · rw [hjoined, String.ofList_toList]
    · rintro others ⟨hothers, rfl⟩
      apply hothers.eq_of_joined_eq hdivision
      rw [hjoined, String.toList_ofList]
  · rintro segments hdivision rfl
    rw [lines, String.toList_ofList, hdivision.splitLines_joined, List.map_map]
    rfl

/-- A carriage return ends a line alone, or with the line feed behind it, or ends an empty line, and
the last line needs no terminator. -/
theorem lines_are_those_of_division_sample :
    IsDivision [⟨['a'], some .carriageReturn⟩, ⟨[], some .both⟩, ⟨['b'], some .lineFeed⟩,
      ⟨[], some .carriageReturn⟩, ⟨['é'], none⟩] ∧
    lines "a\r\r\nb\n\ré" = ["a", "", "b", "", "é"] := by
  have hdivision : IsDivision [⟨['a'], some .carriageReturn⟩, ⟨[], some .both⟩,
      ⟨['b'], some .lineFeed⟩, ⟨[], some .carriageReturn⟩, ⟨['é'], none⟩] :=
    .cons (by decide) (.cons .nil (.cons (by decide) (.cons .nil (.last (by decide) (by decide))
      (by decide)) (by decide)) (by decide)) (by decide)
  exact ⟨hdivision, (lines_are_those_of_division _).2 _ hdivision (by decide)⟩

end BootConfig.Text
