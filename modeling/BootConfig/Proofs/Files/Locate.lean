import BootConfig.Files.Tree

/-!
# Where paths lead

A path is followed from directory to directory, one component at a time. It leads to something
exactly if every component starts at a directory and something is at its end; otherwise it fails for
a cause that is found on the way.
-/

namespace BootConfig.Files

/-- The failure is one of those that are told apart. -/
def Error.IsKnown (e : Error) : Prop :=
  ∀ text, e ≠ .other text

/-- The text of a failure that is known is a single line. -/
theorem Error.IsKnown.newline_notMem {e : Error} (h : e.IsKnown) : '\n' ∉ e.message.toList := by
  cases e with
  | other text => exact (h text rfl).elim
  | _ => decide

namespace Tree

/-- Components lead from one location to another: each of them starts at a directory, and none is
too long to be looked up. -/
inductive Leads (tree : Tree) : Location → List String → Location → Prop where
  | nil (here : Location) : Leads tree here [] here
  | cons {here there : Location} {component : String} {rest : List String}
      (hdir : tree.node? here = some .directory) (hsize : component.utf8ByteSize ≤ maxNameSize)
      (hrest : Leads tree (here.follow component) rest there) :
      Leads tree here (component :: rest) there

/-- Why there is no directory at a location. -/
inductive LacksDirectory (tree : Tree) (here : Location) : Error → Prop where
  | missing (h : tree.node? here = none) : LacksDirectory tree here .notFound
  | file {content : ByteArray} (h : tree.node? here = some (.file content)) :
      LacksDirectory tree here .notDirectory

/-- Why a component cannot be looked up at a location. -/
inductive Blocks (tree : Tree) (here : Location) (component : String) : Error → Prop where
  | lacksDirectory {e : Error} (h : tree.LacksDirectory here e) : Blocks tree here component e
  | tooLong (hdir : tree.node? here = some .directory)
      (hsize : maxNameSize < component.utf8ByteSize) : Blocks tree here component .nameTooLong

/-- Components lead up to one that cannot be looked up. -/
def Fails (tree : Tree) (here : Location) (names : List String) (e : Error) : Prop :=
  ∃ front component back there, names = front ++ component :: back ∧
    tree.Leads here front there ∧ tree.Blocks there component e

variable {tree : Tree} {here there : Location} {component : String} {names : List String}
  {e : Error}

/-- Components lead to the same location in a tree that has all of the directories. -/
theorem Leads.mono {after : Tree}
    (h : ∀ location, tree.node? location = some .directory →
      after.node? location = some .directory)
    (hleads : tree.Leads here names there) : after.Leads here names there := by
  induction hleads with
  | nil here => exact .nil here
  | cons hdir hsize _ ih => exact .cons (h _ hdir) hsize ih

/-- Components that lead to a directory, and a name in it, lead to what has the name. -/
theorem Leads.concat (hleads : tree.Leads here names there)
    (hthere : tree.node? there = some .directory)
    (hsize : component.utf8ByteSize ≤ maxNameSize) :
    tree.Leads here (names ++ [component]) (there.follow component) := by
  induction hleads with
  | nil here => exact .cons hthere hsize (.nil _)
  | cons hdir hsize' _ ih => exact .cons hdir hsize' (ih hthere)

/-- There is a directory, or a cause why there is none. -/
theorem checkDirectory_eq_ok_iff :
    tree.checkDirectory here = .ok () ↔ tree.node? here = some .directory := by
  rw [checkDirectory]
  split <;> simp_all

/-- A check for a directory fails for the cause why there is none. -/
theorem checkDirectory_eq_error_iff :
    tree.checkDirectory here = .error e ↔ tree.LacksDirectory here e := by
  constructor
  · intro h
    rw [checkDirectory] at h
    split at h
    · next hnone =>
      cases h
      exact .missing hnone
    · next hfile =>
      cases h
      exact .file hfile
    · cases h
  · rintro (h | h) <;> rw [checkDirectory, h]

/-- A component can be looked up in a directory, if it is not too long. -/
theorem checkStep_eq_ok_iff :
    tree.checkStep here component = .ok () ↔
      tree.node? here = some .directory ∧ component.utf8ByteSize ≤ maxNameSize := by
  rw [← checkDirectory_eq_ok_iff, checkStep]
  cases tree.checkDirectory here <;> simp

/-- A component is refused for the cause that blocks it. -/
theorem checkStep_eq_error_iff :
    tree.checkStep here component = .error e ↔ tree.Blocks here component e := by
  constructor
  · intro h
    rw [checkStep] at h
    split at h
    · next hcheck =>
      cases h
      exact .lacksDirectory (checkDirectory_eq_error_iff.mp hcheck)
    · next hcheck =>
      split at h
      · cases h
      · next hsize =>
        cases h
        exact .tooLong (checkDirectory_eq_ok_iff.mp hcheck) (Nat.lt_of_not_le hsize)
  · rintro (h | ⟨hdir, hsize⟩)
    · rw [checkStep, checkDirectory_eq_error_iff.mpr h]
    · rw [checkStep, checkDirectory_eq_ok_iff.mpr hdir, if_neg (Nat.not_le_of_lt hsize)]

/-- Following components gives the location to which they lead. -/
theorem walk_eq_ok_iff : tree.walk here names = .ok there ↔ tree.Leads here names there := by
  constructor
  · intro h
    induction names generalizing here with
    | nil =>
      cases h
      exact .nil _
    | cons component rest ih =>
      rw [walk] at h
      split at h
      · cases h
      · next hcheck =>
        obtain ⟨hdir, hsize⟩ := checkStep_eq_ok_iff.mp hcheck
        exact .cons hdir hsize (ih h)
  · intro h
    induction h with
    | nil here => rfl
    | cons hdir hsize _ ih =>
      rw [walk, checkStep_eq_ok_iff.mpr ⟨hdir, hsize⟩]
      exact ih

/-- Following components fails at the first one that cannot be looked up. -/
theorem walk_eq_error_iff : tree.walk here names = .error e ↔ tree.Fails here names e := by
  constructor
  · intro h
    induction names generalizing here with
    | nil => cases h
    | cons component rest ih =>
      rw [walk] at h
      split at h
      · next hcheck =>
        cases h
        exact ⟨[], component, rest, here, rfl, .nil here, checkStep_eq_error_iff.mp hcheck⟩
      · next hcheck =>
        obtain ⟨hdir, hsize⟩ := checkStep_eq_ok_iff.mp hcheck
        obtain ⟨front, blocked, back, there, rfl, hleads, hblocks⟩ := ih h
        exact ⟨component :: front, blocked, back, there, rfl, .cons hdir hsize hleads, hblocks⟩
  · rintro ⟨front, component, back, there, rfl, hleads, hblocks⟩
    -- The induction is on the components in front of the one that is blocked.
    induction hleads with
    | nil here => rw [List.nil_append, walk, checkStep_eq_error_iff.mpr hblocks]
    | cons hdir hsize _ ih =>
      rw [List.cons_append, walk, checkStep_eq_ok_iff.mpr ⟨hdir, hsize⟩]
      exact ih hblocks

/-! ### Opening -/

/-- A path may be looked up: it holds no NUL character and is neither empty nor too long. -/
structure IsUsable (path : String) : Prop where
  nul_notMem : nul ∉ path.toList
  ne_empty : path ≠ ""
  size_le : path.utf8ByteSize ≤ maxPathSize

/-- Why a path may not be looked up. -/
inductive IsUnusable (path : String) : Error → Prop where
  | nul (h : nul ∈ path.toList) : IsUnusable path .nulInPath
  | empty (h : path = "") : IsUnusable path .notFound
  | tooLong (hnul : nul ∉ path.toList) (h : maxPathSize < path.utf8ByteSize) :
      IsUnusable path .nameTooLong

/-- Why a path cannot be opened to be read. -/
inductive CannotOpen (tree : Tree) (path : String) : Error → Prop where
  | unusable {e : Error} (h : IsUnusable path e) : CannotOpen tree path e
  | onTheWay {e : Error} (hpath : IsUsable path)
      (h : tree.Fails (tree.start path) (components path) e) : CannotOpen tree path e
  | missing {there : Location} (hpath : IsUsable path)
      (hleads : tree.Leads (tree.start path) (components path) there)
      (h : tree.node? there = none) : CannotOpen tree path .notFound

variable {path : String}

/-- A path is accepted if it may be looked up. -/
theorem checkPath_eq_ok_iff : checkPath path = .ok () ↔ IsUsable path := by
  constructor
  · intro h
    rw [checkPath] at h
    split at h
    · cases h
    next hnul =>
    split at h
    · cases h
    next hempty =>
    split at h
    · next hsize => exact ⟨hnul, hempty, hsize⟩
    · cases h
  · rintro ⟨hnul, hempty, hsize⟩
    rw [checkPath, if_neg hnul, if_neg hempty, if_pos hsize]

/-- A path is refused for the cause why it may not be looked up. -/
theorem checkPath_eq_error_iff : checkPath path = .error e ↔ IsUnusable path e := by
  constructor
  · intro h
    rw [checkPath] at h
    split at h
    · next hnul =>
      cases h
      exact .nul hnul
    next hnul =>
    split at h
    · next hempty =>
      cases h
      exact .empty hempty
    split at h
    · cases h
    · next hsize =>
      cases h
      exact .tooLong hnul (Nat.lt_of_not_le hsize)
  · rintro (hnul | rfl | ⟨hnul, hsize⟩)
    · rw [checkPath, if_pos hnul]
    · rfl
    · have hne : path ≠ "" := by
        rintro rfl
        exact absurd hsize (by decide)
      rw [checkPath, if_neg hnul, if_neg hne, if_neg (Nat.not_le_of_lt hsize)]

/-- Components lead somewhere or fail. -/
theorem exists_leads_or_fails (tree : Tree) (here : Location) (names : List String) :
    (∃ there, tree.Leads here names there) ∨ ∃ e, tree.Fails here names e := by
  cases h : tree.walk here names with
  | error e => exact .inr ⟨e, walk_eq_error_iff.mp h⟩
  | ok there => exact .inl ⟨there, walk_eq_ok_iff.mp h⟩

/-- A path may be looked up or not. -/
theorem isUsable_or (path : String) : IsUsable path ∨ ∃ e, IsUnusable path e := by
  cases h : checkPath path with
  | error e => exact .inr ⟨e, checkPath_eq_error_iff.mp h⟩
  | ok _ => exact .inl (checkPath_eq_ok_iff.mp h)

private theorem locate_of_leads (hpath : IsUsable path)
    (hleads : tree.Leads (tree.start path) (components path) there) :
    tree.locate path =
      if (tree.node? there).isSome = true then .ok there else .error .notFound := by
  rw [locate, checkPath_eq_ok_iff.mpr hpath, walk_eq_ok_iff.mpr hleads]
  rfl

/-- A path cannot be located for the cause why it cannot be opened. -/
theorem locate_eq_error_iff : tree.locate path = .error e ↔ tree.CannotOpen path e := by
  constructor
  · intro h
    rcases isUsable_or path with hpath | ⟨e', hpath⟩
    · rcases exists_leads_or_fails tree (tree.start path) (components path) with
        ⟨there, hleads⟩ | ⟨e', hfails⟩
      · rw [locate_of_leads hpath hleads] at h
        split at h
        · cases h
        · next hnone =>
          cases h
          exact .missing hpath hleads (Option.not_isSome_iff_eq_none.mp hnone)
      · rw [locate, checkPath_eq_ok_iff.mpr hpath, walk_eq_error_iff.mpr hfails] at h
        cases h
        exact .onTheWay hpath hfails
    · rw [locate, checkPath_eq_error_iff.mpr hpath] at h
      cases h
      exact .unusable hpath
  · rintro (hpath | ⟨hpath, hfails⟩ | ⟨hpath, hleads, hnone⟩)
    · rw [locate, checkPath_eq_error_iff.mpr hpath]
      rfl
    · rw [locate, checkPath_eq_ok_iff.mpr hpath, walk_eq_error_iff.mpr hfails]
      rfl
    · rw [locate_of_leads hpath hleads, hnone, if_neg (by simp)]

/-- A path is located where its components lead, if there is something. -/
theorem locate_eq_ok_iff :
    tree.locate path = .ok there ↔
      IsUsable path ∧ tree.Leads (tree.start path) (components path) there ∧
        (tree.node? there).isSome = true := by
  constructor
  · intro h
    rcases isUsable_or path with hpath | ⟨e, hpath⟩
    · rcases exists_leads_or_fails tree (tree.start path) (components path) with
        ⟨location, hleads⟩ | ⟨e, hfails⟩
      · rw [locate_of_leads hpath hleads] at h
        split at h
        · next hsome =>
          cases h
          exact ⟨hpath, hleads, hsome⟩
        · cases h
      · rw [locate_eq_error_iff.mpr (.onTheWay hpath hfails)] at h
        cases h
    · rw [locate_eq_error_iff.mpr (.unusable hpath)] at h
      cases h
  · rintro ⟨hpath, hleads, hsome⟩
    rw [locate_of_leads hpath hleads, if_pos hsome]

/-- A path that is located can be opened. -/
theorem not_cannotOpen (h : tree.locate path = .ok there) (e : Error) :
    ¬tree.CannotOpen path e := by
  rw [← locate_eq_error_iff, h]
  exact nofun

/-- It is known why there is no directory at a location. -/
theorem LacksDirectory.isKnown (h : tree.LacksDirectory here e) : e.IsKnown := by
  rintro text rfl
  cases h

/-- It is known why components do not lead further. -/
theorem Fails.isKnown (h : tree.Fails here names e) : e.IsKnown := by
  obtain ⟨_, _, _, _, _, _, hblocks⟩ := h
  rintro text rfl
  cases hblocks with
  | lacksDirectory h => cases h

/-- It is known why a path may not be looked up. -/
theorem IsUnusable.isKnown (h : IsUnusable path e) : e.IsKnown := by
  rintro text rfl
  cases h

/-- It is known why a path cannot be opened. -/
theorem CannotOpen.isKnown (h : tree.CannotOpen path e) : e.IsKnown := by
  cases h with
  | unusable h => exact h.isKnown
  | onTheWay _ h => exact h.isKnown
  | missing =>
    rintro text ⟨⟩

end Tree

end BootConfig.Files
