import BootConfig.Proofs.Config.File

/-!
# What a run from file to file answers

A run answers what is generated from the bytes that its input held when it began, unless the output
is the input itself. Then creating the output has emptied the input by the time that it is read, and
the run finds no assignment.
-/

namespace BootConfig.Config

open BootConfig.Files (Location Tree)

variable {tree : Tree} {ifile ofile : String} {input output : Location}
  {bytes : ByteArray}

/-- With the bytes that it reads, a run answers what is generated from them. -/
theorem result_generateFile_of_read (format : Format) (hin : tree.locate ifile = .ok input)
    (hout : tree.Creates ofile output)
    (hread : (tree.put output (.file ByteArray.empty)).content input = .ok bytes) :
    (Tree.perform (generateFile format ifile ofile) tree).1 =
      (generate format bytes none).result := by
  have hempty := Tree.replaced_put ByteArray.empty hout.not_directory
  obtain ⟨after, hrun, -⟩ : ∃ after, Tree.perform (generateFile format ifile ofile) tree =
      ((generate format bytes none).result, after) ∧ _ :=
    perform_generateFile_of_read hin (Tree.locateOutput_eq_ok_iff.mpr hout) hempty hread
  rw [hrun]

/-- Creating another file leaves the input what it was when the run began. -/
theorem result_generateFile_of_ne (format : Format) (hin : tree.locate ifile = .ok input)
    (hfile : tree.node? input = some (.file bytes)) (hout : tree.Creates ofile output)
    (hne : input ≠ output) :
    (Tree.perform (generateFile format ifile ofile) tree).1 =
      (generate format bytes none).result := by
  have hempty := Tree.replaced_put ByteArray.empty hout.not_directory
  apply result_generateFile_of_read format hin hout
  rw [hempty.content_of_ne hne, Tree.content, hfile]

/-- Creating the file that is the input leaves no bytes to be read. -/
theorem result_generateFile_of_same (format : Format) (hin : tree.locate ifile = .ok input)
    (hout : tree.Creates ofile input) :
    (Tree.perform (generateFile format ifile ofile) tree).1 =
      (generate format ByteArray.empty none).result :=
  result_generateFile_of_read format hin hout
    (Tree.replaced_put ByteArray.empty hout.not_directory).content_self

/-- From no bytes nothing is generated but the lines of the format. -/
theorem result_generate_empty (format : Format) :
    (generate format ByteArray.empty none).result = .ok 0 :=
  (generate_of_not_malformed format "" (List.forall_mem_nil _)).2

/-- A run that counts assignments has read a text, and counts the lines of it that make one. -/
theorem exists_text_of_result_eq_ok {count : Nat}
    (h : (generate format bytes none).result = .ok count) :
    ∃ text : String, bytes = text.toUTF8 ∧
      count = (Text.lines text).countP fun line ↦ decide (Assigns line) := by
  by_cases htext : ∃ text : String, bytes = text.toUTF8
  · obtain ⟨text, rfl⟩ := htext
    have hcount := (generate_of_not_malformed format text (not_malformed_of_generate h)).2
    rw [h, length_assignmentsOf] at hcount
    exact ⟨text, rfl, Except.ok.inj hcount⟩
  · rw [generate_of_not_text format (not_exists.mp htext)] at h
    cases h

/-- A run whose input is a file and whose output can be created answers what is generated from the
bytes that the input held when the run began, whatever the output is and held, as long as that is
another file; so if it succeeds, it counts the lines of that text that make an assignment. A run
whose output is its input answers what is generated from no bytes: it succeeds without an
assignment. -/
theorem generateFile_answers (format : Format) (hin : tree.locate ifile = .ok input)
    (hfile : tree.node? input = some (.file bytes)) (hout : tree.Creates ofile output) :
    (input ≠ output →
      (Tree.perform (generateFile format ifile ofile) tree).1 =
        (generate format bytes none).result ∧
      ∀ count, (Tree.perform (generateFile format ifile ofile) tree).1 = .ok count →
        ∃ text : String, bytes = text.toUTF8 ∧
          count = (Text.lines text).countP fun line ↦ decide (Assigns line)) ∧
    (input = output →
      (Tree.perform (generateFile format ifile ofile) tree).1 =
        (generate format ByteArray.empty none).result ∧
      (Tree.perform (generateFile format ifile ofile) tree).1 = .ok 0) := by
  constructor
  · intro hne
    have hresult := result_generateFile_of_ne format hin hfile hout hne
    refine ⟨hresult, ?_⟩
    intro count hcount
    exact exists_text_of_result_eq_ok (hresult.symm.trans hcount)
  · rintro rfl
    have hresult := result_generateFile_of_same format hin hout
    exact ⟨hresult, hresult.trans (result_generate_empty format)⟩

/-- A tree with one configuration, which makes one assignment. -/
def singleTree : Tree :=
  ⟨[], [(["in"], .file "A=y\n".toUTF8)]⟩

/-- A run from the only configuration to a new file counts its assignment, and a run onto it counts
none. -/
theorem generateFile_answers_sample :
    singleTree.locate "in" = .ok ["in"] ∧
    singleTree.node? ["in"] = some (.file "A=y\n".toUTF8) ∧
    singleTree.Creates "out" ["out"] ∧
    (Tree.perform (generateFile .autoConf "in" "out") singleTree).1 =
      (generate .autoConf "A=y\n".toUTF8 none).result ∧
    singleTree.Creates "./in" ["in"] ∧
    (Tree.perform (generateFile .autoConf "in" "./in") singleTree).1 = .ok 0 := by
  have hin : singleTree.locate "in" = .ok ["in"] := rfl
  have hfile : singleTree.node? ["in"] = some (.file "A=y\n".toUTF8) := rfl
  have hout : singleTree.Creates "out" ["out"] := Tree.locateOutput_eq_ok_iff.mp rfl
  have hsame : singleTree.Creates "./in" ["in"] := Tree.locateOutput_eq_ok_iff.mp rfl
  exact ⟨hin, hfile, hout, ((generateFile_answers .autoConf hin hfile hout).1 (by decide)).1, hsame,
    ((generateFile_answers .autoConf hin hfile hsame).2 rfl).2⟩

/-- A run onto its own input does not answer what is generated from the bytes that the input held
when it began: these make an assignment, and the run counts none. -/
theorem generateFile_onto_input :
    singleTree.locate "in" = .ok ["in"] ∧
    singleTree.node? ["in"] = some (.file "A=y\n".toUTF8) ∧
    singleTree.Creates "in" ["in"] ∧
    (generate .autoConf "A=y\n".toUTF8 none).result = .ok 1 ∧
    (Tree.perform (generateFile .autoConf "in" "in") singleTree).1 = .ok 0 ∧
    (Tree.perform (generateFile .autoConf "in" "in") singleTree).1 ≠
      (generate .autoConf "A=y\n".toUTF8 none).result := by
  have hin : singleTree.locate "in" = .ok ["in"] := rfl
  have hout : singleTree.Creates "in" ["in"] := Tree.locateOutput_eq_ok_iff.mp rfl
  have hcount : (generate .autoConf "A=y\n".toUTF8 none).result = .ok 1 := by
    rw [(generate_of_not_malformed .autoConf "A=y\n" (by decide +kernel)).2,
      length_assignmentsOf]
    exact congrArg Except.ok (by decide +kernel)
  have hrun : (Tree.perform (generateFile .autoConf "in" "in") singleTree).1 = .ok 0 :=
    (result_generateFile_of_same .autoConf hin hout).trans (result_generate_empty .autoConf)
  refine ⟨hin, rfl, hout, hcount, hrun, ?_⟩
  rw [hrun, hcount]
  exact fun h ↦ absurd (Except.ok.inj h) (by decide)

end BootConfig.Config
