import BootConfig.Proofs.Config.Answer

/-!
# Why a run from file to file fails

A run on a file tree fails for one of five causes: the input cannot be opened, the output cannot be
created, the input is a directory, it holds no text, or a line of the text is malformed. The first
malformed line is the one that is named.
-/

namespace BootConfig.Config

open BootConfig.Files (Location Tree)

/-- The line of a number is the first malformed one of a text. Lines are counted from one. -/
def IsFirstMalformed (text : String) (number : Nat) : Prop :=
  ∃ front line back, Text.lines text = front ++ line :: back ∧ number = front.length + 1 ∧
    Malformed line ∧ ∀ l ∈ front, ¬Malformed l

/-- Why a run from file to file fails. -/
inductive FailsFor (tree : Tree) (ifile ofile : String) : Error → Prop where
  | cannotOpen {e : Files.Error} (h : tree.CannotOpen ifile e) : FailsFor tree ifile ofile (.io e)
  | cannotCreate {input : Location} {e : Files.Error} (hin : tree.locate ifile = .ok input)
      (h : tree.CannotCreate ofile e) : FailsFor tree ifile ofile (.io e)
  | directory {input output : Location} (hin : tree.locate ifile = .ok input)
      (hout : tree.Creates ofile output) (h : tree.node? input = some .directory) :
      FailsFor tree ifile ofile (.io .isDirectory)
  | notText {input output : Location} {bytes : ByteArray} (hin : tree.locate ifile = .ok input)
      (hout : tree.Creates ofile output) (hne : input ≠ output)
      (hfile : tree.node? input = some (.file bytes)) (h : ∀ text : String, bytes ≠ text.toUTF8) :
      FailsFor tree ifile ofile (.io .invalidText)
  | malformed {input output : Location} {text : String} {number : Nat}
      (hin : tree.locate ifile = .ok input) (hout : tree.Creates ofile output)
      (hne : input ≠ output) (hfile : tree.node? input = some (.file text.toUTF8))
      (h : IsFirstMalformed text number) :
      FailsFor tree ifile ofile (.line number .multipleSeparators)

variable {tree : Tree} {ifile ofile : String} {input output : Location} {e : Error}

private theorem exists_first_malformed (lines : List String) :
    (∀ line ∈ lines, ¬Malformed line) ∨
      ∃ front line back, lines = front ++ line :: back ∧ Malformed line ∧
        ∀ l ∈ front, ¬Malformed l := by
  induction lines with
  | nil => exact .inl (List.forall_mem_nil _)
  | cons first rest ih =>
    by_cases hfirst : Malformed first
    · exact .inr ⟨[], first, rest, rfl, hfirst, List.forall_mem_nil _⟩
    · rcases ih with h | ⟨front, line, back, rfl, hline, hfront⟩
      · exact .inl (List.forall_mem_cons.mpr ⟨hfirst, h⟩)
      · exact .inr ⟨first :: front, line, back, rfl, hline,
          List.forall_mem_cons.mpr ⟨hfirst, hfront⟩⟩

/-- A run on a text fails at its first malformed line. -/
theorem result_generate_of_isFirstMalformed (format : Format) {text : String} {number : Nat}
    (h : IsFirstMalformed text number) :
    (generate format text.toUTF8 none).result = .error (.line number .multipleSeparators) := by
  obtain ⟨front, line, back, hlines, rfl, hline, hfront⟩ := h
  have hk : (Text.lines text)[front.length]? = some line := by
    rw [hlines, List.getElem?_append_right (Nat.le_refl _), Nat.sub_self, List.getElem?_cons_zero]
  refine (generate_of_malformed format hk hline ?_).2
  rwa [hlines, List.take_left']
  rfl

/-- A run on bytes that fails has found no text, or a malformed line. -/
theorem fault_of_result_generate {format : Format} {bytes : ByteArray}
    (h : (generate format bytes none).result = .error e) :
    (∀ text : String, bytes ≠ text.toUTF8) ∧ e = .io .invalidText ∨
      ∃ text : String, bytes = text.toUTF8 ∧ ∃ number, IsFirstMalformed text number ∧
        e = .line number .multipleSeparators := by
  by_cases htext : ∃ text : String, bytes = text.toUTF8
  · obtain ⟨text, rfl⟩ := htext
    rcases exists_first_malformed (Text.lines text) with hnone | ⟨front, line, back, hfirst⟩
    · rw [(generate_of_not_malformed format text hnone).2] at h
      cases h
    · have hnumber : IsFirstMalformed text (front.length + 1) :=
        ⟨front, line, back, hfirst.1, rfl, hfirst.2⟩
      rw [result_generate_of_isFirstMalformed format hnumber] at h
      exact .inr ⟨text, rfl, _, hnumber, (Except.error.inj h).symm⟩
  · have hnone := not_exists.mp htext
    rw [generate_of_not_text format hnone] at h
    exact .inl ⟨hnone, (Except.error.inj h).symm⟩

private theorem result_generateFile_of_directory (format : Format)
    (hin : tree.locate ifile = .ok input)
    (hout : tree.Creates ofile output) (hdir : tree.node? input = some .directory) :
    (Tree.perform (generateFile format ifile ofile) tree).1 = .error (.io .isDirectory) := by
  have hne : input ≠ output := by
    rintro rfl
    exact hout.not_directory hdir
  have hempty := Tree.replaced_put ByteArray.empty hout.not_directory
  have hread : (tree.put output (.file ByteArray.empty)).content input = .error .isDirectory := by
    rw [hempty.content_of_ne hne, Tree.content, hdir]
  exact congrArg Prod.fst (perform_generateFile_of_not_read Tree.opensTree hin
    (Tree.locateOutput_eq_ok_iff.mpr hout) hread)

private theorem result_generateFile_of_cannotOpen (format : Format) {cause : Files.Error}
    (h : tree.CannotOpen ifile cause) :
    (Tree.perform (generateFile format ifile ofile) tree).1 = .error (.io cause) :=
  congrArg Prod.fst
    (perform_generateFile_of_not_opened Tree.opensTree (Tree.locate_eq_error_iff.mpr h))

private theorem result_generateFile_of_cannotCreate (format : Format) {cause : Files.Error}
    (hin : tree.locate ifile = .ok input) (h : tree.CannotCreate ofile cause) :
    (Tree.perform (generateFile format ifile ofile) tree).1 = .error (.io cause) :=
  congrArg Prod.fst
    (perform_generateFile_of_not_created Tree.opensTree hin (Tree.locateOutput_eq_error_iff.mpr h))

/-- A run from file to file fails exactly for these causes. -/
theorem result_generateFile_eq_error_iff (format : Format) :
    (Tree.perform (generateFile format ifile ofile) tree).1 = .error e ↔
      FailsFor tree ifile ofile e := by
  constructor
  · intro h
    cases hin : tree.locate ifile with
    | error cause =>
      have hopen := Tree.locate_eq_error_iff.mp hin
      rw [result_generateFile_of_cannotOpen format hopen] at h
      cases h
      exact .cannotOpen hopen
    | ok input =>
      rcases Tree.creates_or_cannotCreate tree ofile with ⟨output, hout⟩ | ⟨cause, hout⟩
      · obtain ⟨node, hnode⟩ := Option.isSome_iff_exists.mp (Tree.locate_eq_ok_iff.mp hin).2.2
        cases node with
        | directory =>
          rw [result_generateFile_of_directory format hin hout hnode] at h
          cases h
          exact .directory hin hout hnode
        | file bytes =>
          by_cases hne : input = output
          · subst hne
            rw [result_generateFile_of_same format hin hout, result_generate_empty] at h
            cases h
          · rw [result_generateFile_of_ne format hin hnode hout hne] at h
            rcases fault_of_result_generate h with ⟨hnone, rfl⟩ | ⟨text, rfl, number, hline, rfl⟩
            · exact .notText hin hout hne hnode hnone
            · exact .malformed hin hout hne hnode hline
      · rw [result_generateFile_of_cannotCreate format hin hout] at h
        cases h
        exact .cannotCreate hin hout
  · intro h
    cases h with
    | cannotOpen h => exact result_generateFile_of_cannotOpen format h
    | cannotCreate hin h => exact result_generateFile_of_cannotCreate format hin h
    | directory hin hout h => exact result_generateFile_of_directory format hin hout h
    | notText hin hout hne hfile h =>
      rw [result_generateFile_of_ne format hin hfile hout hne, generate_of_not_text format h]
    | malformed hin hout hne hfile h =>
      rw [result_generateFile_of_ne format hin hfile hout hne]
      exact result_generate_of_isFirstMalformed format h

/-- A failure with files that ends a run is known. -/
theorem FailsFor.isKnown {cause : Files.Error} (h : FailsFor tree ifile ofile (.io cause)) :
    cause.IsKnown := by
  cases h with
  | cannotOpen h => exact h.isKnown
  | cannotCreate _ h => exact h.isKnown
  | directory => rintro text ⟨⟩
  | notText => rintro text ⟨⟩

end BootConfig.Config
