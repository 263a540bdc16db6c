import BootConfig.Config.Assignment

/-!
# Readings

A configuration is read line by line up to its first malformed line. The reading holds what each
line before that says, in order, so that a malformed line has as many entries before it as its
number says, less one.
-/

namespace BootConfig.Config

/-- What a well-formed line says. -/
inductive Entry where
  | skipped
  | assigned (a : Assignment)
  deriving DecidableEq, Repr

/-- The assignment of an entry, if it has one. -/
def Entry.assignment? : Entry → Option Assignment
  | .skipped => none
  | .assigned a => some a

/-- The entries of a configuration up to its first malformed line, and what is wrong with that. -/
structure Reading where
  entries : List Entry
  fault : Option LineError
  deriving DecidableEq, Repr

namespace Reading

/-- Puts the entry of an earlier line in front. -/
def cons (entry : Entry) (reading : Reading) : Reading :=
  { reading with entries := entry :: reading.entries }

/-- Reads lines up to the first that is malformed. -/
def ofLines : List String → Reading
  | [] => ⟨[], none⟩
  | line :: rest =>
    match parseLine line with
    | .error fault => ⟨[], some fault⟩
    | .ok none => cons .skipped (ofLines rest)
    | .ok (some a) => cons (.assigned a) (ofLines rest)

/-- The assignments of a reading, in the order of their lines. -/
def assignments (reading : Reading) : List Assignment :=
  reading.entries.filterMap Entry.assignment?

end Reading

end BootConfig.Config
