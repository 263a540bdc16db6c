import BootConfig.Files.Store

/-!
# Performing programs

A program that works on files is performed from a state: it gives a result and leaves a state. Steps
are performed one after the other as long as they succeed. The rules for this hold in every monad
whose steps go from state to state; a file tree is such a state, and a further one can be kept
beside it. Each operation of a tree has one rule here for what it gives and what it leaves.
-/

namespace BootConfig.Files

/-- The steps of a monad go from one state to another. -/
class Stateful (m : Type → Type) [Monad m] (σ : outParam Type) where
  /-- What a step gives in a state, and the state that it leaves. -/
  run {α : Type} : m α → σ → α × σ
  run_pure {α : Type} (a : α) (s : σ) : run (pure a) s = (a, s)
  run_bind {α β : Type} (first : m α) (next : α → m β) (s : σ) :
    run (first >>= next) s = run (next (run first s).1) (run first s).2

/-- A monad of states goes from state to state. -/
instance {σ : Type} : Stateful (StateM σ) σ where
  run := StateT.run
  run_pure _ _ := rfl
  run_bind _ _ _ := rfl

/-- A state can be kept beside that of a monad. -/
instance {m : Type → Type} {τ σ : Type} [Monad m] [Stateful m σ] :
    Stateful (StateT τ m) (τ × σ) where
  run program s :=
    let left := Stateful.run (StateT.run program s.1) s.2
    (left.1.1, (left.1.2, left.2))
  run_pure a s := by
    rw [StateT.run_pure, Stateful.run_pure]
  run_bind first next s := by
    rw [StateT.run_bind, Stateful.run_bind]

variable {m : Type → Type} {τ σ ε α β : Type} [Monad m] [Stateful m σ]

/-- The state that is kept beside another one is part of what a step gives, as seen from below. -/
theorem Stateful.run_stateT_iff {step : StateT τ m α} {a : α} {t left : τ} {s after : σ} :
    Stateful.run step (t, s) = (a, (left, after)) ↔
      Stateful.run (StateT.run step t) s = ((a, left), after) := by
  constructor
  · intro h
    have ha := congrArg Prod.fst h
    have hleft := congrArg (·.2.1) h
    have hafter := congrArg (·.2.2) h
    exact Prod.ext (Prod.ext ha hleft) hafter
  · intro h
    exact congrArg (fun outcome ↦ (outcome.1.1, (outcome.1.2, outcome.2))) h

/-- A step of the monad below leaves the state beside it alone. -/
theorem Stateful.run_lift (step : m α) (t : τ) (s : σ) :
    Stateful.run (StateT.lift step : StateT τ m α) (t, s) =
      ((Stateful.run step s).1, (t, (Stateful.run step s).2)) := by
  apply Stateful.run_stateT_iff.mpr
  change Stateful.run (step >>= fun a ↦ pure (a, t)) s = _
  rw [Stateful.run_bind, Stateful.run_pure]

/-- The result of a program, and the state that it leaves. -/
def perform (program : ExceptT ε m α) (s : σ) : Except ε α × σ :=
  Stateful.run program.run s

/-- A program that does nothing succeeds and leaves the state alone. -/
theorem perform_pure (a : α) (s : σ) : perform (pure a : ExceptT ε m α) s = (.ok a, s) :=
  Stateful.run_pure _ _

section Steps

variable {first : ExceptT ε m α} {next : α → ExceptT ε m β} {s after : σ}

/-- A program goes on from what a step that succeeds has left. -/
theorem perform_bind_of_ok {a : α} (h : perform first s = (.ok a, after)) :
    perform (first >>= next) s = perform (next a) after := by
  rw [perform] at h
  rw [perform, ExceptT.run_bind, Stateful.run_bind, h]
  rfl

/-- A program ends at a step that fails. -/
theorem perform_bind_of_error {e : ε} (h : perform first s = (.error e, after)) :
    perform (first >>= next) s = (.error e, after) := by
  rw [perform] at h
  rw [perform, ExceptT.run_bind, Stateful.run_bind, h]
  exact Stateful.run_pure _ _

/-- A result that is known already leaves the state alone. -/
theorem perform_liftExcept (result : Except ε α) (s : σ) :
    perform (liftExcept result : ExceptT ε m α) s = (result, s) := by
  cases result <;> exact Stateful.run_pure _ _

/-- A step whose failures are named otherwise leaves the same state. -/
theorem perform_adapt [LawfulMonad m] {δ : Type} {result : Except ε α} (rename : ε → δ)
    (h : perform first s = (result, after)) :
    perform (first.adapt rename) s = (result.mapError rename, after) := by
  rw [perform] at h
  rw [perform, ExceptT.run_adapt, map_eq_pure_bind, Stateful.run_bind, h, Stateful.run_pure]

/-- A program of the monad below, beside a state that it leaves alone. -/
def below (program : ExceptT ε m α) : ExceptT ε (StateT τ m) α :=
  ExceptT.mk (StateT.lift program.run)

/-- A program beside a state gives and leaves what it does without it. -/
theorem perform_below {result : Except ε α} (h : perform first s = (result, after)) (t : τ) :
    perform (below first) (t, s) = (result, (t, after)) := by
  rw [perform] at h
  rw [perform, below, ExceptT.run_mk, Stateful.run_lift, h]

end Steps

/-! ### The state beside another one -/

/-- A program goes on with the state that it asks for. -/
theorem perform_get_bind (next : τ → ExceptT ε (StateT τ m) α) (t : τ) (s : σ) :
    perform (get >>= next) (t, s) = perform (next t) (t, s) := by
  apply perform_bind_of_ok
  apply Stateful.run_stateT_iff.mpr
  change Stateful.run (pure (t, t) >>= fun p ↦ pure (Except.ok p.1, p.2) : m _) s = _
  rw [Stateful.run_bind, Stateful.run_pure, Stateful.run_pure]

/-- What is made of the state is left. -/
theorem perform_modify (f : τ → τ) (t : τ) (s : σ) :
    perform (modify f : ExceptT ε (StateT τ m) Unit) (t, s) = (.ok (), (f t, s)) := by
  apply Stateful.run_stateT_iff.mpr
  change Stateful.run (pure ((), f t) >>= fun p ↦ pure (Except.ok p.1, p.2) : m _) s = _
  rw [Stateful.run_bind, Stateful.run_pure, Stateful.run_pure]

/-- A program goes on with the state that is put in place of the one it had. -/
theorem perform_set_bind (next : PUnit → ExceptT ε (StateT τ m) α) (t t' : τ) (s : σ) :
    perform (set t' >>= next) (t, s) = perform (next ()) (t', s) := by
  apply perform_bind_of_ok
  apply Stateful.run_stateT_iff.mpr
  change Stateful.run (pure (PUnit.unit, t') >>= fun p ↦ pure (Except.ok p.1, p.2) : m _) s = _
  rw [Stateful.run_bind, Stateful.run_pure, Stateful.run_pure]

/-! ### Trees -/

/-- Files are opened to be read, and read, as on a tree that is part of the state. -/
structure ReadsTree (m : Type → Type) [Monad m] [Stateful m σ] [Store m Location]
    (state : Tree → σ) : Prop where
  openInput (tree : Tree) (path : String) :
    perform (Store.openInput path : ExceptT Error m Location) (state tree) =
      (tree.locate path, state tree)
  readAll (tree : Tree) (location : Location) :
    perform (Store.readAll location : ExceptT Error m ByteArray) (state tree) =
      (tree.content location, state tree)

/-- Files are opened as on a tree that is part of the state: a file that is opened to be written is
empty, and one that cannot be created changes nothing. -/
structure OpensTree (m : Type → Type) [Monad m] [Stateful m σ] [Store m Location]
    (state : Tree → σ) : Prop extends ReadsTree m state where
  openOutput_of_error {tree : Tree} {path : String} {e : Error}
    (h : tree.locateOutput path = .error e) :
    perform (Store.openOutput path : ExceptT Error m Location) (state tree) =
      (.error e, state tree)
  openOutput_of_ok {tree : Tree} {path : String} {location : Location}
    (h : tree.locateOutput path = .ok location) :
    perform (Store.openOutput path : ExceptT Error m Location) (state tree) =
      (.ok location, state (tree.put location (.file ByteArray.empty)))

namespace Tree

/-- The result of a program on a tree, and the tree that it leaves. -/
def perform {ε α : Type} (program : ExceptT ε (StateM Tree) α) (tree : Tree) :
    Except ε α × Tree :=
  StateT.run program.run tree

/-- A tree is the state of a program on it. -/
theorem perform_eq {ε α : Type} (program : ExceptT ε (StateM Tree) α) (tree : Tree) :
    Files.perform program tree = perform program tree :=
  rfl

variable {tree : Tree} {location : Location} {path : String}

private theorem perform_query_bind_of_ok {α β : Type} {f : Tree → Except Error α} {a : α}
    (next : α → ExceptT Error (StateM Tree) β) (h : f tree = .ok a) :
    perform (query f >>= next) tree = perform (next a) tree := by
  have hquery : Files.perform (query f) tree = (.ok a, tree) := congrArg (·, tree) h
  exact perform_bind_of_ok hquery

private theorem perform_query_bind_of_error {α β : Type} {f : Tree → Except Error α} {e : Error}
    (next : α → ExceptT Error (StateM Tree) β) (h : f tree = .error e) :
    perform (query f >>= next) tree = (.error e, tree) := by
  have hquery : Files.perform (query f) tree = (.error e, tree) := congrArg (·, tree) h
  exact perform_bind_of_error hquery

/-- On a tree, files are opened and read. -/
theorem opensTree : OpensTree (StateM Tree) id where
  openInput _ _ := rfl
  readAll _ _ := rfl
  openOutput_of_error h := perform_query_bind_of_error _ h
  openOutput_of_ok h := perform_query_bind_of_ok _ h

/-- Bytes that are written to a file are all taken and stand behind what it holds. -/
theorem perform_write_of_ok {old : ByteArray} (bytes : ByteArray)
    (h : tree.content location = .ok old) :
    perform (Store.write location bytes) tree =
      (.ok bytes.size, tree.put location (.file (old ++ bytes))) :=
  perform_query_bind_of_ok _ h

/-- Bytes that are put into a file replace as many of those that it holds. -/
theorem perform_overwrite_of_ok {old : ByteArray} (offset : Nat) (bytes : List UInt8)
    (hpath : tree.locate path = .ok location) (h : tree.content location = .ok old) :
    perform (Store.overwrite path offset bytes) tree =
      (.ok (), tree.put location (.file (Bytes.overwrite old offset bytes))) :=
  (perform_query_bind_of_ok _ hpath).trans (perform_query_bind_of_ok _ h)

end Tree

end BootConfig.Files
