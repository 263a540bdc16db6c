import Mathlib.Data.List.DropRight
import BootConfig.Proofs.Files.Locate

/-!
# Where files are created

To create a file, or to empty the one that is there, its parent has to be a directory and nothing
but a file may be in its place. A path that ends in a slash or in a dot names a directory, and so
does one that consists of slashes.
-/

namespace BootConfig.Files

namespace Tree

/-- The components of a path without the empty ones at its end. -/
def outputNames (path : String) : List String :=
  (components path).rdropWhile (· == "")

/-- A path leads up to its last component, in front of which it is at the given location. -/
structure Approaches (tree : Tree) (path : String) (parent : Location) (last : String) :
    Prop where
  usable : IsUsable path
  leads : ∃ front, outputNames path = front ++ [last] ∧ tree.Leads (tree.start path) front parent

/-- The last component of a path names something in its parent, which need not be a directory. -/
def NamesFile (path last : String) : Prop :=
  isStep last = false ∧ path.toList.getLast? ≠ some '/'

/-- Why no file can be created at a path, or the one there not be emptied. -/
inductive CannotCreate (tree : Tree) (path : String) : Error → Prop where
  | unusable {e : Error} (h : IsUnusable path e) : CannotCreate tree path e
  | slashes (hpath : IsUsable path) (h : outputNames path = []) :
      CannotCreate tree path .isDirectory
  | onTheWay {e : Error} {front : List String} {last : String} (hpath : IsUsable path)
      (hnames : outputNames path = front ++ [last]) (h : tree.Fails (tree.start path) front e) :
      CannotCreate tree path e
  | lacksParent {e : Error} {parent : Location} {last : String}
      (happroaches : tree.Approaches path parent last) (h : tree.LacksDirectory parent e) :
      CannotCreate tree path e
  | namesDirectory {parent : Location} {last : String}
      (happroaches : tree.Approaches path parent last)
      (hparent : tree.node? parent = some .directory) (h : ¬NamesFile path last) :
      CannotCreate tree path .isDirectory
  | tooLong {parent : Location} {last : String} (happroaches : tree.Approaches path parent last)
      (hparent : tree.node? parent = some .directory) (hname : NamesFile path last)
      (h : maxNameSize < last.utf8ByteSize) : CannotCreate tree path .nameTooLong
  | isDirectory {parent : Location} {last : String}
      (happroaches : tree.Approaches path parent last)
      (hparent : tree.node? parent = some .directory) (hname : NamesFile path last)
      (hsize : last.utf8ByteSize ≤ maxNameSize)
      (h : tree.node? (parent ++ [last]) = some .directory) :
      CannotCreate tree path .isDirectory

/-- A file can be created at a location, or the one there be emptied: its parent is a directory, and
it is none itself. -/
structure Creates (tree : Tree) (path : String) (location : Location) : Prop where
  exists_parent : ∃ parent last, tree.Approaches path parent last ∧
    tree.node? parent = some .directory ∧ NamesFile path last ∧
    last.utf8ByteSize ≤ maxNameSize ∧ location = parent ++ [last]
  not_directory : tree.node? location ≠ some .directory

variable {tree : Tree} {path : String} {parent location : Location} {last : String} {e : Error}

/-- A component that is no step leads to the location of that name. -/
theorem follow_of_not_isStep (h : isStep last = false) :
    Location.follow parent last = parent ++ [last] := by
  simp only [isStep, Bool.or_eq_false_iff] at h
  obtain ⟨⟨hempty, hdot⟩, hdots⟩ := h
  simp only [Location.follow, hempty, hdot, hdots, Bool.or_self, Bool.false_eq_true, if_false]

private theorem splitSlashes_ne_nil (cs : List Char) : splitSlashes cs ≠ [] := by
  cases cs with
  | nil => exact List.cons_ne_nil _ _
  | cons c rest =>
    rw [splitSlashes]
    split
    · exact List.cons_ne_nil _ _
    · split <;> exact List.cons_ne_nil _ _

private theorem getLast?_splitSlashes {cs : List Char} (hne : cs ≠ [])
    (hend : cs.getLast? ≠ some '/') :
    (splitSlashes cs).getLast? ≠ some [] := by
  induction cs with
  | nil => exact absurd rfl hne
  | cons c rest ih =>
    cases rest with
    | nil =>
      have hc : c ≠ '/' := fun h ↦ hend (congrArg some h)
      simp [splitSlashes, hc]
    | cons d rest =>
      have hlast := ih (List.cons_ne_nil d rest) (by rwa [List.getLast?_cons_cons] at hend)
      rw [splitSlashes]
      cases hpieces : splitSlashes (d :: rest) with
      | nil => exact (splitSlashes_ne_nil _ hpieces).elim
      | cons piece pieces =>
        rw [hpieces] at hlast
        split
        · rwa [List.getLast?_cons_cons]
        · cases pieces with
          | nil => simp
          | cons next pieces => simpa using hlast

/-- A path that names a file has no empty component at its end. -/
theorem components_of_namesFile (hpath : IsUsable path) (hname : NamesFile path last) :
    components path = outputNames path := by
  refine (List.rdropWhile_eq_self_iff.mpr ?_).symm
  intro hne hempty
  have hchars : path.toList ≠ [] := fun h ↦ hpath.ne_empty (String.toList_eq_nil_iff.mp h)
  refine getLast?_splitSlashes hchars hname.2 ?_
  have hlast := List.getLast?_eq_some_getLast hne
  rw [beq_iff_eq.mp hempty, components, List.getLast?_map, Option.map_eq_some_iff] at hlast
  obtain ⟨piece, hpiece, hp⟩ := hlast
  rwa [← String.ofList_eq_empty_iff.mp hp]

private theorem namesFile_iff :
    (isStep last || path.toList.getLast? == some '/') = false ↔ NamesFile path last := by
  rw [NamesFile, Bool.or_eq_false_iff, beq_eq_false_iff_ne]

private theorem reverse_dropWhile_components (path : String) :
    ((components path).reverse.dropWhile (· == "")).reverse = outputNames path :=
  rfl

private theorem locateOutput_of_isUnusable (hpath : IsUnusable path e) :
    tree.locateOutput path = .error e := by
  rw [locateOutput, checkPath_eq_error_iff.mpr hpath]
  rfl

private theorem locateOutput_of_slashes (hpath : IsUsable path) (hnames : outputNames path = []) :
    tree.locateOutput path = .error .isDirectory := by
  rw [locateOutput, checkPath_eq_ok_iff.mpr hpath, reverse_dropWhile_components, hnames]
  rfl

private theorem locateOutput_of_fails {front : List String} (hpath : IsUsable path)
    (hnames : outputNames path = front ++ [last])
    (hfails : tree.Fails (tree.start path) front e) : tree.locateOutput path = .error e := by
  simp only [locateOutput, checkPath_eq_ok_iff.mpr hpath, reverse_dropWhile_components, hnames,
    List.getLast?_concat, List.dropLast_concat, walk_eq_error_iff.mpr hfails, bind, Except.bind]

private theorem locateOutput_of_lacksDirectory (happroaches : tree.Approaches path parent last)
    (hlacks : tree.LacksDirectory parent e) : tree.locateOutput path = .error e := by
  obtain ⟨hpath, front, hnames, hleads⟩ := happroaches
  simp only [locateOutput, checkPath_eq_ok_iff.mpr hpath, reverse_dropWhile_components, hnames,
    List.getLast?_concat, List.dropLast_concat, walk_eq_ok_iff.mpr hleads,
    checkDirectory_eq_error_iff.mpr hlacks, bind, Except.bind]

private theorem locateOutput_of_approaches (happroaches : tree.Approaches path parent last)
    (hparent : tree.node? parent = some .directory) :
    (¬NamesFile path last → tree.locateOutput path = .error .isDirectory) ∧
    (NamesFile path last → maxNameSize < last.utf8ByteSize →
      tree.locateOutput path = .error .nameTooLong) ∧
    (NamesFile path last → last.utf8ByteSize ≤ maxNameSize →
      tree.node? (parent ++ [last]) = some .directory →
      tree.locateOutput path = .error .isDirectory) ∧
    (NamesFile path last → last.utf8ByteSize ≤ maxNameSize →
      tree.node? (parent ++ [last]) ≠ some .directory →
      tree.locateOutput path = .ok (parent ++ [last])) := by
  obtain ⟨hpath, front, hnames, hleads⟩ := happroaches
  simp only [locateOutput, checkPath_eq_ok_iff.mpr hpath, reverse_dropWhile_components, hnames,
    List.getLast?_concat, List.dropLast_concat, walk_eq_ok_iff.mpr hleads,
    checkDirectory_eq_ok_iff.mpr hparent, bind, Except.bind, ← namesFile_iff]
  refine ⟨?_, ?_, ?_, ?_⟩
  · intro hname
    rw [if_pos (Bool.of_not_eq_false hname)]
    rfl
  · intro hname hsize
    rw [if_neg (Bool.not_eq_true _ ▸ hname), checkStep_eq_error_iff.mpr (.tooLong hparent hsize)]
  · intro hname hsize hdir
    rw [if_neg (Bool.not_eq_true _ ▸ hname), checkStep_eq_ok_iff.mpr ⟨hparent, hsize⟩]
    simp only [hdir]
    rfl
  · intro hname hsize hfree
    rw [if_neg (Bool.not_eq_true _ ▸ hname), checkStep_eq_ok_iff.mpr ⟨hparent, hsize⟩]
    dsimp only
    split
    · next hdir => exact (hfree hdir).elim
    · rfl

private theorem locateOutput_of_cannotCreate (h : tree.CannotCreate path e) :
    tree.locateOutput path = .error e := by
  cases h with
  | unusable hpath => exact locateOutput_of_isUnusable hpath
  | slashes hpath hnames => exact locateOutput_of_slashes hpath hnames
  | onTheWay hpath hnames hfails => exact locateOutput_of_fails hpath hnames hfails
  | lacksParent happroaches hlacks => exact locateOutput_of_lacksDirectory happroaches hlacks
  | namesDirectory happroaches hparent hname =>
    exact (locateOutput_of_approaches happroaches hparent).1 hname
  | tooLong happroaches hparent hname hsize =>
    exact (locateOutput_of_approaches happroaches hparent).2.1 hname hsize
  | isDirectory happroaches hparent hname hsize hdir =>
    exact (locateOutput_of_approaches happroaches hparent).2.2.1 hname hsize hdir

private theorem locateOutput_of_creates (h : tree.Creates path location) :
    tree.locateOutput path = .ok location := by
  obtain ⟨⟨parent, last, happroaches, hparent, hname, hsize, rfl⟩, hfree⟩ := h
  exact (locateOutput_of_approaches happroaches hparent).2.2.2 hname hsize hfree

/-- At a path, a file can be created somewhere, or there is a cause against it. -/
theorem creates_or_cannotCreate (tree : Tree) (path : String) :
    (∃ location, tree.Creates path location) ∨ ∃ e, tree.CannotCreate path e := by
  -- The cases are split in the order of the checks, as each cause supposes that the checks before
  -- it are passed.
  rcases isUsable_or path with hpath | ⟨e, hpath⟩
  swap
  · exact .inr ⟨e, .unusable hpath⟩
  rcases List.eq_nil_or_concat' (outputNames path) with hnames | ⟨front, last, hnames⟩
  · exact .inr ⟨_, .slashes hpath hnames⟩
  rcases exists_leads_or_fails tree (tree.start path) front with ⟨parent, hleads⟩ | ⟨e, hfails⟩
  swap
  · exact .inr ⟨e, .onTheWay hpath hnames hfails⟩
  have happroaches : tree.Approaches path parent last := ⟨hpath, front, hnames, hleads⟩
  cases hcheck : tree.checkDirectory parent with
  | error e => exact .inr ⟨e, .lacksParent happroaches (checkDirectory_eq_error_iff.mp hcheck)⟩
  | ok _ =>
    have hparent := checkDirectory_eq_ok_iff.mp hcheck
    by_cases hname : NamesFile path last
    swap
    · exact .inr ⟨_, .namesDirectory happroaches hparent hname⟩
    rcases Nat.lt_or_ge maxNameSize last.utf8ByteSize with hsize | hsize
    · exact .inr ⟨_, .tooLong happroaches hparent hname hsize⟩
    by_cases hdir : tree.node? (parent ++ [last]) = some .directory
    · exact .inr ⟨_, .isDirectory happroaches hparent hname hsize hdir⟩
    · exact .inl ⟨_, ⟨parent, last, happroaches, hparent, hname, hsize, rfl⟩, hdir⟩

/-- Creating a file fails for the cause that is against it. -/
theorem locateOutput_eq_error_iff :
    tree.locateOutput path = .error e ↔ tree.CannotCreate path e := by
  constructor
  · intro h
    rcases creates_or_cannotCreate tree path with ⟨location, hcreates⟩ | ⟨e', hcannot⟩
    · rw [locateOutput_of_creates hcreates] at h
      cases h
    · rw [locateOutput_of_cannotCreate hcannot] at h
      cases h
      exact hcannot
  · exact locateOutput_of_cannotCreate

/-- A file is created exactly at a location where it can be. -/
theorem locateOutput_eq_ok_iff :
    tree.locateOutput path = .ok location ↔ tree.Creates path location := by
  constructor
  · intro h
    rcases creates_or_cannotCreate tree path with ⟨location', hcreates⟩ | ⟨e, hcannot⟩
    · rw [locateOutput_of_creates hcreates] at h
      cases h
      exact hcreates
    · rw [locateOutput_of_cannotCreate hcannot] at h
      cases h
  · exact locateOutput_of_creates

/-- Where a file is created, nothing is against it. -/
theorem not_cannotCreate (h : tree.locateOutput path = .ok location) (e : Error) :
    ¬tree.CannotCreate path e := by
  rw [← locateOutput_eq_error_iff, h]
  exact nofun

/-- It is known why a file cannot be created. -/
theorem CannotCreate.isKnown (h : tree.CannotCreate path e) : e.IsKnown := by
  rintro text rfl
  cases h with
  | unusable h => exact h.isKnown text rfl
  | onTheWay _ _ h => exact h.isKnown text rfl
  | lacksParent _ h => exact h.isKnown text rfl

end Tree

end BootConfig.Files
