import BootConfig.Proofs.Files.Perform

/-!
# Journals of changes

A store can keep a journal of the changes that it makes. A program does the same on such a store;
the journal tells in addition which bytes it handed over to be written, and where. Operations that
only read, and those that fail, leave no trace in it.
-/

namespace BootConfig.Files

/-- A change that is made to a file. -/
inductive Change where
  /-- A file is created, or the one that is there is emptied. -/
  | emptied (path : String)
  /-- Bytes are added at the end of an open file. -/
  | appended (bytes : ByteArray)
  /-- Bytes of a file are replaced from an offset on. -/
  | overwritten (path : String) (offset : Nat) (bytes : List UInt8)

section Store

variable {m : Type → Type} {handle α : Type} [Monad m]

/-- An operation that makes a change, if it succeeds. What it gives may tell which one. -/
def recorded (change : α → Change) (operation : ExceptT Error m α) :
    ExceptT Error (StateT (List Change) m) α := do
  let result ← below operation
  modify (· ++ [change result])
  return result

/-- A store with a journal works as the store without it. -/
instance [Store m handle] : Store (StateT (List Change) m) handle where
  openInput path := below (Store.openInput path)
  openOutput path := recorded (fun _ ↦ .emptied path) (Store.openOutput path)
  readAll file := below (Store.readAll file)
  write file bytes :=
    recorded (fun count ↦ .appended (bytes.extract 0 count)) (Store.write file bytes)
  overwrite path offset bytes :=
    recorded (fun _ ↦ .overwritten path offset bytes) (Store.overwrite path offset bytes)

end Store

namespace Tree

variable {ε α : Type}

/-- The result of a program on a tree, the changes that it enters in a journal behind the given
ones, and the tree that it leaves. -/
def record (program : ExceptT ε (StateT (List Change) (StateM Tree)) α) (changes : List Change)
    (tree : Tree) : (Except ε α × List Change) × Tree :=
  StateT.run (StateT.run program.run changes) tree

variable {changes more : List Change} {tree after : Tree}

/-- A journal is kept beside the tree. -/
theorem record_eq_iff {program : ExceptT ε (StateT (List Change) (StateM Tree)) α}
    {result : Except ε α} :
    record program changes tree = ((result, more), after) ↔
      Files.perform program (changes, tree) = (result, (more, after)) := by
  have hbeside : Files.perform program (changes, tree) = (result, (more, after)) ↔
      Stateful.run (StateT.run program.run changes) tree = ((result, more), after) :=
    Stateful.run_stateT_iff
  exact hbeside.symm

/-- Opening a file to be read is no change, and neither is reading it. -/
theorem readsTree_journal (changes : List Change) :
    ReadsTree (StateT (List Change) (StateM Tree)) (Prod.mk changes) where
  openInput tree path := perform_below (opensTree.openInput tree path) changes
  readAll tree location := perform_below (opensTree.readAll tree location) changes

/-- An operation that makes a change enters it at the end of the journal. -/
theorem perform_recorded_of_ok {operation : ExceptT Error (StateM Tree) α} {a : α}
    (change : α → Change) (changes : List Change)
    (h : Files.perform operation tree = (.ok a, after)) :
    Files.perform (recorded change operation) (changes, tree) =
      (.ok a, (changes ++ [change a], after)) := by
  rw [recorded, perform_bind_of_ok (perform_below h changes),
    perform_bind_of_ok (perform_modify _ changes after), perform_pure]

end Tree

end BootConfig.Files
