import BootConfig.Proofs.Config.Generate
import BootConfig.Proofs.Config.Written
import BootConfig.Proofs.Files.Change

/-!
# Runs from file to file

A run fails without a trace if its input cannot be opened or its output cannot be created. From then
on the output is there: it holds what was written when the run ended, and nothing else has changed.
-/

namespace BootConfig.Config

open BootConfig.Files (Accounts Location OpensTree Stateful Store Tree perform)
open BootConfig.Text (unlines)

variable {format : Format} {tree after : Tree} {ifile ofile : String} {input output : Location}
  {bytes : ByteArray}

section State

variable {m : Type → Type} {σ : Type} [Monad m] [LawfulMonad m] [Stateful m σ] [Store m Location]
  {state : Tree → σ}

/-- Where files are opened as on a tree, a run without an input does nothing. -/
theorem perform_generateFile_of_not_opened (hopens : OpensTree m state) {e : Files.Error}
    (h : tree.locate ifile = .error e) :
    perform (generateFile format ifile ofile : ExceptT Error m Nat) (state tree) =
      (.error (.io e), state tree) := by
  have hopen := hopens.openInput tree ifile
  rw [h] at hopen
  exact Files.perform_bind_of_error (perform_onFiles hopen)

/-- If the output cannot be created, a run does nothing. -/
theorem perform_generateFile_of_not_created (hopens : OpensTree m state) {e : Files.Error}
    (hin : tree.locate ifile = .ok input) (hout : tree.locateOutput ofile = .error e) :
    perform (generateFile format ifile ofile : ExceptT Error m Nat) (state tree) =
      (.error (.io e), state tree) := by
  have hopen := hopens.openInput tree ifile
  rw [hin] at hopen
  rw [generateFile, Files.perform_bind_of_ok (perform_onFiles hopen)]
  exact Files.perform_bind_of_error (perform_onFiles (hopens.openOutput_of_error hout))

private theorem perform_generateFile_of_opened (hopens : OpensTree m state)
    (hin : tree.locate ifile = .ok input) (hout : tree.locateOutput ofile = .ok output) :
    perform (generateFile format ifile ofile : ExceptT Error m Nat) (state tree) =
      perform (do
        let bytes ← onFiles (Store.readAll input)
        ExceptT.mk ((scriptFor format bytes).writeTo output) : ExceptT Error m Nat)
        (state (tree.put output (.file ByteArray.empty))) := by
  have hopen := hopens.openInput tree ifile
  rw [hin] at hopen
  rw [generateFile, Files.perform_bind_of_ok (perform_onFiles hopen),
    Files.perform_bind_of_ok (perform_onFiles (hopens.openOutput_of_ok hout))]

/-- If the input cannot be read, a run leaves the output empty. -/
theorem perform_generateFile_of_not_read (hopens : OpensTree m state) {e : Files.Error}
    (hin : tree.locate ifile = .ok input) (hout : tree.locateOutput ofile = .ok output)
    (hread : (tree.put output (.file ByteArray.empty)).content input = .error e) :
    perform (generateFile format ifile ofile : ExceptT Error m Nat) (state tree) =
      (.error (.io e), state (tree.put output (.file ByteArray.empty))) := by
  have hbytes := hopens.readAll (tree.put output (.file ByteArray.empty)) input
  rw [hread] at hbytes
  rw [perform_generateFile_of_opened hopens hin hout]
  exact Files.perform_bind_of_error (perform_onFiles hbytes)

/-- With the bytes that it reads, a run leaves what their script does on a file that is empty. -/
theorem leaves_generateFile_of_read {Holds : Option Files.Error → σ → ByteArray → Prop}
    (hopens : OpensTree m state) (haccount : Accounts m output Holds)
    (hin : tree.locate ifile = .ok input) (hout : tree.locateOutput ofile = .ok output)
    (hempty : Holds none (state (tree.put output (.file ByteArray.empty))) ByteArray.empty)
    (hread : (tree.put output (.file ByteArray.empty)).content input = .ok bytes) :
    Leaves Holds (scriptFor format bytes)
      (perform (generateFile format ifile ofile : ExceptT Error m Nat) (state tree)) := by
  have hbytes := hopens.readAll (tree.put output (.file ByteArray.empty)) input
  rw [hread] at hbytes
  rw [perform_generateFile_of_opened hopens hin hout,
    Files.perform_bind_of_ok (perform_onFiles hbytes)]
  exact leaves_writeTo haccount _ hempty

end State

/-- Without a limit, a run on a sink writes what its script does and ends as that says. -/
theorem generate_unlimited (format : Format) (bytes : ByteArray) :
    (generate format bytes none).output = (writtenBy (scriptFor format bytes).steps).toUTF8 ∧
      (generate format bytes none).result = (scriptFor format bytes).result := by
  rw [generate, Script.run_unlimited]
  exact ⟨rfl, rfl⟩

/-- With the bytes that it reads, a run on a tree leaves in the output what is generated from them,
and ends as that does. -/
theorem perform_generateFile_of_read (hin : tree.locate ifile = .ok input)
    (hout : tree.locateOutput ofile = .ok output)
    (hempty : tree.Replaced output ByteArray.empty (tree.put output (.file ByteArray.empty)))
    (hread : (tree.put output (.file ByteArray.empty)).content input = .ok bytes) :
    ∃ after, Tree.perform (generateFile format ifile ofile) tree =
        ((generate format bytes none).result, after) ∧
      tree.Replaced output (generate format bytes none).output after := by
  obtain ⟨houtput, hresult⟩ := generate_unlimited format bytes
  have hleaves : Leaves (tree.Plain output) (scriptFor format bytes)
      (Tree.perform (generateFile format ifile ofile) tree) :=
    leaves_generateFile_of_read Tree.opensTree (Tree.accounts_plain tree output) hin hout
      ⟨rfl, hempty⟩ hread
  rw [houtput, hresult]
  generalize Tree.perform (generateFile format ifile ofile) tree = outcome at hleaves ⊢
  -- No write is refused on a tree.
  cases hleaves with
  | whole h => exact ⟨_, rfl, h.2⟩
  | unreported _ _ _ h => cases h.1
  | reported _ _ h => cases h.1

/-- What a run that has opened both files gives and leaves. Its output is at the path at which it
was created, and every other thing is where it was and what it was. -/
structure Outcome (format : Format) (tree : Tree) (ofile : String) (input output : Location)
    (result : Except Error Nat) (after : Tree) : Prop where
  of_file : ∀ bytes, tree.node? input = some (.file bytes) →
    result = (generate format bytes none).result ∧
      tree.Replaced output (generate format bytes none).output after
  of_not_text : ∀ bytes, tree.node? input = some (.file bytes) →
    (∀ text : String, bytes ≠ text.toUTF8) →
    result = .error (.io .invalidText) ∧ tree.Replaced output ByteArray.empty after
  of_malformed : ∀ text : String, tree.node? input = some (.file text.toUTF8) →
    ∀ k line, (Text.lines text)[k]? = some line → Malformed line →
      (∀ l ∈ (Text.lines text).take k, ¬Malformed l) →
      result = .error (.line (k + 1) .multipleSeparators) ∧
        tree.Replaced output (unlines (format.opening ++
          (assignmentsOf ((Text.lines text).take k)).map format.row)).toUTF8 after
  of_directory : tree.node? input = some .directory →
    result = .error (.io .isDirectory) ∧ tree.Replaced output ByteArray.empty after
  locate_output : after.locate ofile = .ok output
  locate_other : ∀ path other, other ≠ output →
    (after.locate path = .ok other ↔ tree.locate path = .ok other)

private theorem outcome_of_file {bytes : ByteArray} (hin : tree.locate ifile = .ok input)
    (hout : tree.Creates ofile output) (hne : input ≠ output)
    (hfile : tree.node? input = some (.file bytes)) :
    ∃ result after, Tree.perform (generateFile format ifile ofile) tree = (result, after) ∧
      Outcome format tree ofile input output result after := by
  have hempty := Tree.replaced_put ByteArray.empty hout.not_directory
  have hread : (tree.put output (.file ByteArray.empty)).content input = .ok bytes := by
    rw [hempty.content_of_ne hne, Tree.content, hfile]
  obtain ⟨after, hrun, hafter⟩ :=
    perform_generateFile_of_read hin (Tree.locateOutput_eq_ok_iff.mpr hout) hempty hread
  have hcontent : ∀ other, tree.node? input = some (.file other) → other = bytes := by
    intro other hother
    cases hother.symm.trans hfile
    rfl
  refine ⟨_, after, hrun, ?_, ?_, ?_, ?_, hafter.locate_self hout, ?_⟩
  · intro other hother
    obtain rfl := hcontent other hother
    exact ⟨rfl, hafter⟩
  · intro other hother htext
    obtain rfl := hcontent other hother
    rw [generate_of_not_text format htext] at hafter ⊢
    exact ⟨rfl, hafter⟩
  · intro text hother k line hk hline hbefore
    obtain rfl := hcontent _ hother
    obtain ⟨houtput, hresult⟩ := generate_of_malformed format hk hline hbefore
    rw [houtput] at hafter
    exact ⟨hresult, hafter⟩
  · intro hdir
    cases hdir.symm.trans hfile
  · exact fun path other hother ↦ hafter.locate_iff_of_ne hother

private theorem outcome_of_directory (hin : tree.locate ifile = .ok input)
    (hout : tree.Creates ofile output) (hne : input ≠ output)
    (hdir : tree.node? input = some .directory) :
    ∃ result after, Tree.perform (generateFile format ifile ofile) tree = (result, after) ∧
      Outcome format tree ofile input output result after := by
  have hempty := Tree.replaced_put ByteArray.empty hout.not_directory
  have hread : (tree.put output (.file ByteArray.empty)).content input = .error .isDirectory := by
    rw [hempty.content_of_ne hne, Tree.content, hdir]
  have hnofile : ∀ bytes, tree.node? input ≠ some (.file bytes) := by
    intro bytes hfile
    cases hfile.symm.trans hdir
  refine ⟨_, _, perform_generateFile_of_not_read Tree.opensTree hin
    (Tree.locateOutput_eq_ok_iff.mpr hout) hread, ?_, ?_, ?_, fun _ ↦ ⟨rfl, hempty⟩,
    hempty.locate_self hout, ?_⟩
  · exact fun bytes hfile ↦ (hnofile bytes hfile).elim
  · exact fun bytes hfile ↦ (hnofile bytes hfile).elim
  · exact fun text hfile ↦ (hnofile _ hfile).elim
  · exact fun path other hother ↦ hempty.locate_iff_of_ne hother

/-- What a run from file to file does to a tree. If its input cannot be opened, or its output cannot
be created, it fails for that cause and leaves the tree as it was. Otherwise there is something at
the path of the input and a place for the output; if these differ, the run ends as a run on the
content of the input does, and leaves in the output what that writes. -/
theorem generateFile_outcome (format : Format) (tree : Tree) (ifile ofile : String) :
    (∀ e, tree.CannotOpen ifile e →
      Tree.perform (generateFile format ifile ofile) tree = (.error (.io e), tree)) ∧
    ((∀ e, ¬tree.CannotOpen ifile e) →
      ∃ input, tree.locate ifile = .ok input ∧ (tree.node? input).isSome = true ∧
        (∀ e, tree.CannotCreate ofile e →
          Tree.perform (generateFile format ifile ofile) tree = (.error (.io e), tree)) ∧
        ((∀ e, ¬tree.CannotCreate ofile e) →
          ∃ output, tree.Creates ofile output ∧
            (input ≠ output →
              ∃ result after,
                Tree.perform (generateFile format ifile ofile) tree = (result, after) ∧
                Outcome format tree ofile input output result after))) := by
  constructor
  · intro e h
    exact perform_generateFile_of_not_opened Tree.opensTree (Tree.locate_eq_error_iff.mpr h)
  intro hopens
  obtain ⟨input, hin⟩ : ∃ input, tree.locate ifile = .ok input := by
    cases h : tree.locate ifile with
    | error e => exact (hopens e (Tree.locate_eq_error_iff.mp h)).elim
    | ok input => exact ⟨input, rfl⟩
  have hsome := (Tree.locate_eq_ok_iff.mp hin).2.2
  refine ⟨input, hin, hsome, ?_, ?_⟩
  · intro e h
    exact perform_generateFile_of_not_created Tree.opensTree hin
      (Tree.locateOutput_eq_error_iff.mpr h)
  intro hcreates
  obtain ⟨output, hout⟩ | ⟨e, h⟩ := Tree.creates_or_cannotCreate tree ofile
  swap
  · exact (hcreates e h).elim
  refine ⟨output, hout, fun hne ↦ ?_⟩
  -- A directory can be opened, and fails only when it is read, after the output was created.
  obtain ⟨node, hnode⟩ := Option.isSome_iff_exists.mp hsome
  cases node with
  | file bytes => exact outcome_of_file hin hout hne hnode
  | directory => exact outcome_of_directory hin hout hne hnode

/-- A tree with a configuration whose second line is malformed, another file, and a directory. -/
def sampleTree : Tree :=
  ⟨[], [(["in"], .file "A=y\nB=1=2\n".toUTF8), (["out"], .file "old".toUTF8),
    (["dir"], .directory)]⟩

/-- A missing input, and a directory in place of the output, leave the tree as it is. From the
malformed configuration the line before the malformed one is generated, and from a directory
nothing. -/
theorem generateFile_outcome_sample :
    sampleTree.CannotOpen "missing" .notFound ∧
    Tree.perform (generateFile .autoConf "missing" "out") sampleTree =
      (.error (.io .notFound), sampleTree) ∧
    sampleTree.CannotCreate "dir" .isDirectory ∧
    Tree.perform (generateFile .autoConf "in" "dir") sampleTree =
      (.error (.io .isDirectory), sampleTree) ∧
    (∃ after, Tree.perform (generateFile .autoConf "in" "dir/../out") sampleTree =
        (.error (.line 2 .multipleSeparators), after) ∧
      after.node? ["out"] = some (.file (banner ++ "CONFIG_A=y\n").toUTF8) ∧
      after.node? ["in"] = some (.file "A=y\nB=1=2\n".toUTF8)) ∧
    ∃ after, Tree.perform (generateFile .autoConf "dir" "new") sampleTree =
        (.error (.io .isDirectory), after) ∧
      after.node? ["new"] = some (.file ByteArray.empty) := by
  have hmissing : sampleTree.CannotOpen "missing" .notFound := Tree.locate_eq_error_iff.mp rfl
  have hdirectory : sampleTree.CannotCreate "dir" .isDirectory :=
    Tree.locateOutput_eq_error_iff.mp rfl
  have hin : sampleTree.locate "in" = .ok ["in"] := rfl
  have hdir : sampleTree.locate "dir" = .ok ["dir"] := rfl
  have hout : sampleTree.locateOutput "dir/../out" = .ok ["out"] := rfl
  have hnew : sampleTree.locateOutput "new" = .ok ["new"] := rfl
  refine ⟨hmissing, (generateFile_outcome .autoConf _ _ _).1 _ hmissing, hdirectory, ?_, ?_, ?_⟩
  · obtain ⟨-, -, -, hrun, -⟩ := (generateFile_outcome .autoConf sampleTree "in" "dir").2
      (Tree.not_cannotOpen hin)
    exact hrun _ hdirectory
  · obtain ⟨input, hlocated, -, -, hrun⟩ :=
      (generateFile_outcome .autoConf sampleTree "in" "dir/../out").2 (Tree.not_cannotOpen hin)
    obtain ⟨output, hcreates, hrun⟩ := hrun (Tree.not_cannotCreate hout)
    cases hlocated.symm.trans hin
    cases (Tree.locateOutput_eq_ok_iff.mpr hcreates).symm.trans hout
    obtain ⟨result, after, hrun, houtcome⟩ := hrun (by decide)
    obtain ⟨rfl, hafter⟩ := houtcome.of_malformed "A=y\nB=1=2\n" rfl 1 "B=1=2" (by decide +kernel)
      (by decide +kernel) (by decide +kernel)
    refine ⟨after, hrun, ?_, hafter.node?_of_ne ["in"] (by decide)⟩
    rw [hafter.node?_self]
    exact congrArg (some ∘ Files.Node.file ∘ String.toUTF8) (by decide +kernel)
  · obtain ⟨input, hlocated, -, -, hrun⟩ :=
      (generateFile_outcome .autoConf sampleTree "dir" "new").2 (Tree.not_cannotOpen hdir)
    obtain ⟨output, hcreates, hrun⟩ := hrun (Tree.not_cannotCreate hnew)
    cases hlocated.symm.trans hdir
    cases (Tree.locateOutput_eq_ok_iff.mpr hcreates).symm.trans hnew
    obtain ⟨result, after, hrun, houtcome⟩ := hrun (by decide)
    obtain ⟨rfl, hafter⟩ := houtcome.of_directory rfl
    exact ⟨after, hrun, hafter.node?_self⟩

end BootConfig.Config
