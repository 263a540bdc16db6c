import BootConfig.Proofs.Files.Buffer
import BootConfig.Proofs.Files.Create

/-!
# What a change of one file leaves

A file is put where no directory is. As directories are left alone, a path leads where it led
before; a path at which the file was created leads to it now. A file takes all that is written to
it.
-/

namespace BootConfig.Files

namespace Tree

/-- A file with the given content is put at a location, where no directory is, and everything else
is left alone. -/
structure Replaced (tree : Tree) (location : Location) (content : ByteArray) (after : Tree) :
    Prop where
  not_directory : tree.node? location ≠ some .directory
  workingDirectory : after.workingDirectory = tree.workingDirectory
  node?_self : after.node? location = some (.file content)
  node?_of_ne : ∀ other, other ≠ location → after.node? other = tree.node? other

variable {tree middle after : Tree} {location other : Location} {path : String}
  {old content : ByteArray}

private theorem isAnchor_eq_false (h : tree.node? location ≠ some .directory) :
    tree.isAnchor location = false := by
  by_contra hanchor
  exact h (if_pos (Bool.of_not_eq_false hanchor))

/-- A file that is put where no directory is leaves everything else alone. -/
theorem replaced_put (content : ByteArray) (h : tree.node? location ≠ some .directory) :
    tree.Replaced location content (tree.put location (.file content)) where
  not_directory := h
  workingDirectory := rfl
  node?_self := by
    rw [node?_put tree location location _ (isAnchor_eq_false h), if_pos rfl]
  node?_of_ne other hother := by
    rw [node?_put tree location other _ (isAnchor_eq_false h), if_neg hother]

namespace Replaced

/-- Of two files that are put at one location, the second counts. -/
theorem trans (first : tree.Replaced location old middle)
    (second : middle.Replaced location content after) : tree.Replaced location content after where
  not_directory := first.not_directory
  workingDirectory := second.workingDirectory.trans first.workingDirectory
  node?_self := second.node?_self
  node?_of_ne other hother :=
    (second.node?_of_ne other hother).trans (first.node?_of_ne other hother)

/-- The content that was put at a location is that of the file there. -/
theorem content_self (h : tree.Replaced location content after) :
    after.content location = .ok content := by
  rw [Tree.content, h.node?_self]

/-- Every other file has the content that it had. -/
theorem content_of_ne (h : tree.Replaced location content after) (hother : other ≠ location) :
    after.content other = tree.content other := by
  rw [Tree.content, h.node?_of_ne other hother]
  rfl

/-- The file that was put somewhere can be replaced by another one. -/
theorem put (h : tree.Replaced location old after) (content : ByteArray) :
    tree.Replaced location content (after.put location (.file content)) := by
  refine h.trans (replaced_put content ?_)
  rw [h.node?_self]
  exact nofun

/-- There are directories where there were some. -/
theorem node?_eq_directory_iff (h : tree.Replaced location content after) (other : Location) :
    after.node? other = some .directory ↔ tree.node? other = some .directory := by
  by_cases hother : other = location
  · subst hother
    rw [h.node?_self]
    constructor
    · intro hdir
      cases hdir
    · exact fun hdir ↦ (h.not_directory hdir).elim
  · rw [h.node?_of_ne other hother]

private theorem start_eq (h : tree.Replaced location content after) (path : String) :
    after.start path = tree.start path := by
  rw [start, start, h.workingDirectory]

/-- Components lead where they led, as only directories are needed on the way. -/
theorem leads_iff (h : tree.Replaced location content after) {here there : Location}
    {names : List String} : after.Leads here names there ↔ tree.Leads here names there :=
  ⟨Leads.mono fun l ↦ (h.node?_eq_directory_iff l).mp,
    Leads.mono fun l ↦ (h.node?_eq_directory_iff l).mpr⟩

/-- Every other thing is found at the paths that led to it, and at no others. -/
theorem locate_iff_of_ne (h : tree.Replaced location content after) (hother : other ≠ location) :
    after.locate path = .ok other ↔ tree.locate path = .ok other := by
  rw [locate_eq_ok_iff, locate_eq_ok_iff, h.start_eq, h.leads_iff, h.node?_of_ne other hother]

/-- A path leads where it led, if there was something already where the file was put. -/
theorem locate_iff_of_isSome (h : tree.Replaced location content after)
    (hsome : (tree.node? location).isSome = true) (path : String) (other : Location) :
    after.locate path = .ok other ↔ tree.locate path = .ok other := by
  by_cases hother : other = location
  · subst hother
    rw [locate_eq_ok_iff, locate_eq_ok_iff, h.start_eq, h.leads_iff, h.node?_self, hsome,
      Option.isSome_some]
  · exact h.locate_iff_of_ne hother

/-- The path at which a file was created leads to it. -/
theorem locate_self (h : tree.Replaced location content after)
    (hcreates : tree.Creates path location) : after.locate path = .ok location := by
  obtain ⟨⟨parent, last, ⟨hpath, front, hnames, hleads⟩, hparent, hname, hsize, rfl⟩, -⟩ :=
    hcreates
  have hconcat := hleads.concat hparent hsize
  rw [follow_of_not_isStep hname.1] at hconcat
  rw [locate_eq_ok_iff, h.start_eq, components_of_namesFile hpath hname, hnames, h.node?_self]
  exact ⟨hpath, h.leads_iff.mpr hconcat, rfl⟩

end Replaced

/-- An account of a file that was put on a tree: everything else is left alone, and no write is
refused. -/
def Plain (tree : Tree) (location : Location) (first : Option Error) (after : Tree)
    (held : ByteArray) : Prop :=
  first = none ∧ tree.Replaced location held after

/-- A file of a tree takes everything. -/
theorem accounts_plain (tree : Tree) (location : Location) :
    Accounts (StateM Tree) location (tree.Plain location) := by
  rintro first after held bytes hne ⟨rfl, hheld⟩
  rw [perform_eq, perform_write_of_ok bytes hheld.content_self]
  refine .some (Nat.pos_of_ne_zero hne) (Nat.le_refl _) ⟨rfl, ?_⟩
  rw [ByteArray.extract_zero_size]
  exact hheld.put _

end Tree

end BootConfig.Files
