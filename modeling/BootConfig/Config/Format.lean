import BootConfig.Config.Assignment

/-!
# Output formats

A configuration is written out in one of two formats: a cache of assignments that a make file can
include, and a header of macro definitions between an include guard. Either writes one line for
each assignment, with `CONFIG_` in front of the name. A text is handed over piece by piece, and a
sink may run full at any of them.
-/

namespace BootConfig.Config

/-- A format of generated configuration files. -/
inductive Format where
  /-- A cache of assignments for make. -/
  | autoConf
  /-- A header of macro definitions, guarded by a macro of the given name. -/
  | header (guard : String)
  deriving DecidableEq, Repr

/-- The include guard of a header for which none is chosen. -/
def defaultGuard : String := "__ELFBOOT_CONFIG_H__"

/-- What stands in front of every name that is written out. -/
def namePrefix : String := "CONFIG_"

/-- The notice at the top of a cache. -/
def banner : String :=
  "# This file is automatically created with:\n" ++
  "# builtin = $(BUILTIN) -i $(1)\n" ++
  "#\n" ++
  "# Do NOT change this file manually!\n" ++
  "\n"

namespace Format

/-- The texts written before the first assignment, one after the other. -/
def prologuePieces : Format → List String
  | .autoConf => [banner]
  | .header guard => ["#ifndef ", guard, "\n", "#define ", guard, "\n", "\n"]

/-- The texts that make up the line of an assignment. A cache restates it; a header defines a
macro, to nothing for `y`, and only remarks that there is none for `n`. -/
def assignmentPieces (format : Format) (a : Assignment) : List String :=
  match format, a.value with
  | .autoConf, .yes => [namePrefix, a.name, "=y\n"]
  | .autoConf, .asModule => [namePrefix, a.name, "=m\n"]
  | .autoConf, _ => [namePrefix, a.name, "=", a.raw, "\n"]
  | .header _, .no => ["/* ", namePrefix, a.name, " is not defined */\n"]
  | .header _, .yes => ["#define ", namePrefix, a.name, "\n"]
  | .header _, _ => ["#define ", namePrefix, a.name, " ", a.raw, "\n"]

/-- The texts written after the last assignment, one after the other. -/
def epiloguePieces : Format → List String
  | .autoConf => []
  | .header guard => ["\n", "#endif /* ", guard, " */\n"]

/-- What is written before the first assignment. -/
def prologue (format : Format) : String :=
  String.join format.prologuePieces

/-- The line of an assignment. -/
def assignment (format : Format) (a : Assignment) : String :=
  String.join (format.assignmentPieces a)

/-- What is written after the last assignment. -/
def epilogue (format : Format) : String :=
  String.join format.epiloguePieces

end Format

end BootConfig.Config
