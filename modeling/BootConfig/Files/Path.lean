/-!
# Paths

A path names a file by the components between its slashes. It starts at the root if its first
character is a slash, and otherwise wherever it is used. A location is what a path leads to: the
names of the directories from the root on, then the name itself, so that two paths name the same
file if they lead to the same location.
-/

namespace BootConfig.Files

/-- The names from the root to a file or directory; the root has none. -/
abbrev Location := List String

/-- The pieces of a sequence of characters between the slashes in it. -/
def splitSlashes : List Char → List (List Char)
  | [] => [[]]
  | c :: cs =>
    if c = '/' then [] :: splitSlashes cs
    else
      match splitSlashes cs with
      | [] => [[c]]
      | piece :: pieces => (c :: piece) :: pieces

/-- The components of a path. One that is empty stands where slashes meet or at an end. -/
def components (path : String) : List String :=
  (splitSlashes path.toList).map String.ofList

/-- Does a path start at the root? -/
def isAbsolute (path : String) : Bool :=
  path.toList.head? == some '/'

/-- The character that no path may hold. -/
def nul : Char := '\x00'

/-- The size in bytes that a path may have. -/
def maxPathSize : Nat := 4095

/-- The size in bytes that one name of a path may have. -/
def maxNameSize : Nat := 255

/-- A component that leads to no new name: it stays, or it goes back to the parent. -/
def isStep (component : String) : Bool :=
  component == "" || component == "." || component == ".."

/-- Where a component leads from a location, if that is a directory. The root is its own parent. -/
def Location.follow (here : Location) (component : String) : Location :=
  if component == "" || component == "." then here
  else if component == ".." then here.dropLast
  else here ++ [component]

example : components "a//b/" = ["a", "", "b", ""] := by decide

end BootConfig.Files
