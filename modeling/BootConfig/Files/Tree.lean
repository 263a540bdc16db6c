import BootConfig.Files.Error
import BootConfig.Files.Path

/-!
# File trees

The files and directories below a root, and the working directory from which a path is followed that
does not start at the root. Every component of a path needs a directory to start from, and nothing
but the end of a path may be missing.
-/

namespace BootConfig.Files

/-- What is at a location. -/
inductive Node where
  | file (content : ByteArray)
  | directory

/-- Files and directories by location; of two entries for one location the first counts. -/
structure Tree where
  workingDirectory : Location
  entries : List (Location × Node)

namespace Tree

/-- A tree with nothing but a working directory. -/
def bare (workingDirectory : Location) : Tree :=
  ⟨workingDirectory, []⟩

/-- Is the location that of the working directory, or does it lie on the way there from the root? -/
def isAnchor (tree : Tree) (location : Location) : Bool :=
  location.isPrefixOf tree.workingDirectory

/-- What is at a location. From the root to the working directory there are directories. -/
def node? (tree : Tree) (location : Location) : Option Node :=
  if tree.isAnchor location then some .directory else tree.entries.lookup location

/-- The tree with something put at a location. -/
def put (tree : Tree) (location : Location) (node : Node) : Tree :=
  { tree with entries := (location, node) :: tree.entries }

/-- Where a path starts. -/
def start (tree : Tree) (path : String) : Location :=
  if isAbsolute path then [] else tree.workingDirectory

/-- Fails unless there is a directory at the location. -/
def checkDirectory (tree : Tree) (location : Location) : Except Error Unit :=
  match tree.node? location with
  | none => .error .notFound
  | some (.file _) => .error .notDirectory
  | some .directory => .ok ()

/-- Fails if a path holds a NUL character, is empty or is too long. -/
def checkPath (path : String) : Except Error Unit :=
  if nul ∈ path.toList then .error .nulInPath
  else if path = "" then .error .notFound
  else if path.utf8ByteSize ≤ maxPathSize then .ok ()
  else .error .nameTooLong

/-- Fails unless a component can be looked up at a location. -/
def checkStep (tree : Tree) (here : Location) (component : String) : Except Error Unit :=
  match tree.checkDirectory here with
  | .error e => .error e
  | .ok () => if component.utf8ByteSize ≤ maxNameSize then .ok () else .error .nameTooLong

/-- Follows components from a location. -/
def walk (tree : Tree) : Location → List String → Except Error Location
  | here, [] => .ok here
  | here, component :: rest =>
    match tree.checkStep here component with
    | .error e => .error e
    | .ok () => walk tree (here.follow component) rest

/-- The location of something that exists. -/
def locate (tree : Tree) (path : String) : Except Error Location := do
  checkPath path
  let location ← tree.walk (tree.start path) (components path)
  if (tree.node? location).isSome then return location else throw .notFound

/-- The location at which a file is created or replaced. Its parent has to be a directory and
nothing but a file may be in its place; a path that ends in a slash or in a dot names a directory,
whether there is one or not. -/
def locateOutput (tree : Tree) (path : String) : Except Error Location := do
  checkPath path
  let names := ((components path).reverse.dropWhile (· == "")).reverse
  match names.getLast? with
  | none => throw .isDirectory
  | some last => do
    let parent ← tree.walk (tree.start path) names.dropLast
    tree.checkDirectory parent
    if isStep last || path.toList.getLast? == some '/' then throw .isDirectory
    tree.checkStep parent last
    match tree.node? (parent ++ [last]) with
    | some .directory => throw .isDirectory
    | _ => return parent ++ [last]

/-- The content of the file at a location. -/
def content (tree : Tree) (location : Location) : Except Error ByteArray :=
  match tree.node? location with
  | none => .error .notFound
  | some .directory => .error .isDirectory
  | some (.file bytes) => .ok bytes

/-- What was put at a location is there, and nothing else has changed. -/
theorem node?_put (tree : Tree) (location other : Location) (node : Node)
    (h : tree.isAnchor location = false) :
    (tree.put location node).node? other =
      if other = location then some node else tree.node? other := by
  have anchor : (tree.put location node).isAnchor other = tree.isAnchor other := rfl
  rw [node?, anchor]
  by_cases ho : other = location
  · subst ho
    simp [put, h]
  · have hb : (other == location) = false := by simpa using ho
    simp [node?, put, List.lookup_cons, ho, hb]

end Tree

end BootConfig.Files
