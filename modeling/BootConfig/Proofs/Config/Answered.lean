import BootConfig.Proofs.Config.Failure
import BootConfig.Proofs.Files.Answered

/-!
# Runs whose output answers writes

A run from file to file that opens both of its files writes what is generated from its input, as far
as the output takes it. If the output refuses something, the run ends with that, unless a line is
malformed and nothing was refused before the end of what is written in front of it.
-/

namespace BootConfig.Config

open BootConfig.Files (Answered FirstFails Location Reply TakenUpTo Tree bufferSize)

/-- A run opens its input and creates its output, and the input holds the given bytes then. -/
structure Opens (tree : Tree) (ifile ofile : String) (output : Location) (bytes : ByteArray) :
    Prop where
  creates : tree.Creates ofile output
  exists_input : ∃ input, tree.locate ifile = .ok input ∧
    (tree.put output (.file ByteArray.empty)).content input = .ok bytes

/-- Nothing is written to a tree, on which a file may be created that is empty. -/
inductive IsUnwritten (tree : Tree) (ofile : String) : Tree → Prop where
  | untouched : IsUnwritten tree ofile tree
  | emptied {output : Location} {after : Tree} (hcreates : tree.Creates ofile output)
      (hafter : tree.Replaced output ByteArray.empty after) : IsUnwritten tree ofile after

/-- How a run from file to file ends whose output answers writes with the given replies: its result,
the replies that are left, and the tree. -/
inductive EndsOn (format : Format) (replies : List Reply) (tree : Tree) (ifile ofile : String) :
    Except Error Nat → List Reply → Tree → Prop where
  /-- The output has taken everything. -/
  | written {output : Location} {bytes : ByteArray} {count : Nat} {rest : List Reply}
      {after : Tree} (hnone : ∀ e, ¬FailsFor tree ifile ofile e)
      (hopens : Opens tree ifile ofile output bytes)
      (hresult : (generate format bytes none).result = .ok count)
      (htaken : TakenUpTo replies rest (generate format bytes none).output.size)
      (hafter : tree.Replaced output (generate format bytes none).output after) :
      EndsOn format replies tree ifile ofile (.ok count) rest after
  /-- A line is malformed. The output has taken what is written in front of it, or has refused the
  last part of that. -/
  | malformed {output : Location} {bytes front back : ByteArray} {number : Nat}
      {rest : List Reply} {after : Tree}
      (hcause : FailsFor tree ifile ofile (.line number .multipleSeparators))
      (hopens : Opens tree ifile ofile output bytes)
      (hsplit : front ++ back = (generate format bytes none).output)
      (hrefused : back.size ≠ 0 → ∃ cause, FirstFails replies cause)
      (hafter : tree.Replaced output front after) :
      EndsOn format replies tree ifile ofile (.error (.line number .multipleSeparators)) rest after
  /-- There is a cause for which nothing is written, whatever the output takes. -/
  | failed {cause : Files.Error} {after : Tree} (hcause : FailsFor tree ifile ofile (.io cause))
      (hafter : IsUnwritten tree ofile after) :
      EndsOn format replies tree ifile ofile (.error (.io cause)) replies after
  /-- The output has refused something: at the end, or when more was written than waits for it. -/
  | refused {output : Location} {bytes front back : ByteArray} {cause : Files.Error}
      {rest : List Reply} {after : Tree} (hfirst : FirstFails replies cause)
      (hopens : Opens tree ifile ofile output bytes)
      (hlate : (∀ e, ¬FailsFor tree ifile ofile e) ∨
        bufferSize ≤ (generate format bytes none).output.size)
      (hsplit : front ++ back = (generate format bytes none).output)
      (hafter : tree.Replaced output front after) :
      EndsOn format replies tree ifile ofile (.error (.io cause)) rest after

variable {format : Format} {replies : List Reply} {tree : Tree} {ifile ofile : String}
  {output : Location} {bytes : ByteArray}

/-- A run that opens both files fails as a run on the bytes does that it reads. -/
theorem Opens.result_generate_eq_error_iff (hopens : Opens tree ifile ofile output bytes)
    (format : Format) (e : Error) :
    (generate format bytes none).result = .error e ↔ FailsFor tree ifile ofile e := by
  obtain ⟨hcreates, input, hin, hread⟩ := hopens
  rw [← result_generateFile_of_read format hin hcreates hread, result_generateFile_eq_error_iff]

/-- A run that opens both files does not fail if one on the bytes does not that it reads. -/
theorem Opens.not_failsFor {count : Nat} (hopens : Opens tree ifile ofile output bytes)
    (hresult : (generate format bytes none).result = .ok count) (e : Error) :
    ¬FailsFor tree ifile ofile e := by
  rw [← hopens.result_generate_eq_error_iff format, hresult]
  exact nofun

private theorem opens_or_failsFor (format : Format) (replies : List Reply) (tree : Tree)
    (ifile ofile : String) :
    (∃ output bytes, Opens tree ifile ofile output bytes) ∨
    ∃ cause after, FailsFor tree ifile ofile (.io cause) ∧ IsUnwritten tree ofile after ∧
      Answered.perform (generateFile format ifile ofile) replies tree =
        (.error (.io cause), (replies, after)) := by
  have hopens := Tree.opensTree_answered replies
  cases hin : tree.locate ifile with
  | error cause =>
    exact .inr ⟨cause, tree, .cannotOpen (Tree.locate_eq_error_iff.mp hin), .untouched,
      perform_generateFile_of_not_opened hopens hin⟩
  | ok input =>
    rcases Tree.creates_or_cannotCreate tree ofile with ⟨output, hcreates⟩ | ⟨cause, hcreate⟩
    · have hout := Tree.locateOutput_eq_ok_iff.mpr hcreates
      cases hread : (tree.put output (.file ByteArray.empty)).content input with
      | ok bytes => exact .inl ⟨output, bytes, hcreates, input, hin, hread⟩
      | error cause =>
        have hplain : Tree.perform (generateFile format ifile ofile) tree =
            (.error (.io cause), _) :=
          perform_generateFile_of_not_read Tree.opensTree hin hout hread
        have hempty := Tree.replaced_put ByteArray.empty hcreates.not_directory
        have hcause := (result_generateFile_eq_error_iff format).mp (congrArg Prod.fst hplain)
        exact .inr ⟨cause, _, hcause, .emptied hcreates hempty,
          perform_generateFile_of_not_read hopens hin hout hread⟩
    · exact .inr ⟨cause, tree, .cannotCreate hin hcreate, .untouched,
        perform_generateFile_of_not_created hopens hin (Tree.locateOutput_eq_error_iff.mpr hcreate)⟩

private theorem output_generate_of_io {cause : Files.Error}
    (h : (generate format bytes none).result = .error (.io cause)) :
    (generate format bytes none).output = ByteArray.empty := by
  rcases fault_of_result_generate h with ⟨hnone, -⟩ | ⟨_, _, _, _, hline⟩
  · rw [generate_of_not_text format hnone]
  · cases hline

private theorem Opens.endsOn_of_leaves {result : Except Error Nat} {rest : List Reply}
    {after : Tree}
    (hopens : Opens tree ifile ofile output bytes)
    (hleaves : Leaves (tree.Replied output replies) (scriptFor format bytes)
      (result, (rest, after))) :
    EndsOn format replies tree ifile ofile result rest after := by
  obtain ⟨houtput, hresult⟩ := generate_unlimited format bytes
  have hfails := hopens.result_generate_eq_error_iff format
  cases hleaves with
  | whole h =>
    obtain ⟨hafter, htaken⟩ := h
    rw [← houtput] at hafter htaken
    rw [← hresult]
    rcases hend : (generate format bytes none).result with (cause | ⟨number, ⟨⟩⟩) | count
    · rw [output_generate_of_io hend] at hafter htaken
      obtain rfl : rest = replies := TakenUpTo.eq_of_size_eq_zero htaken
      exact .failed ((hfails _).mp hend) (.emptied hopens.creates hafter)
    · exact .malformed ((hfails _).mp hend) hopens ByteArray.append_empty (fun h ↦ (h rfl).elim)
        hafter
    · exact .written (hopens.not_failsFor hend) hopens hend htaken hafter
  | @unreported e cause front back _ hend hsplit hback h =>
    rw [← houtput] at hsplit
    rw [← hresult] at hend
    rcases e with cause | ⟨number, ⟨⟩⟩
    · have hsize := congrArg ByteArray.size (hsplit.trans (output_generate_of_io hend))
      rw [ByteArray.size_append, ByteArray.size_empty] at hsize
      omega
    · exact .malformed ((hfails _).mp hend) hopens hsplit (fun _ ↦ ⟨cause, h.2⟩) h.1
  | reported hlate hsplit h =>
    rw [← houtput] at hlate hsplit
    rw [← hresult] at hlate
    refine .refused h.2 hopens (hlate.imp_left ?_) hsplit h.1
    rintro ⟨count, hend⟩
    exact hopens.not_failsFor hend

/-- A run whose output answers writes ends in one of these ways. -/
theorem endsOn_generateFile (format : Format) (replies : List Reply) (tree : Tree)
    (ifile ofile : String) :
    ∃ result rest after,
      Answered.perform (generateFile format ifile ofile) replies tree = (result, (rest, after)) ∧
      EndsOn format replies tree ifile ofile result rest after := by
  rcases opens_or_failsFor format replies tree ifile ofile with
    ⟨output, bytes, hopens⟩ | ⟨cause, after, hfails, hafter, hrun⟩
  · obtain ⟨hcreates, input, hin, hread⟩ := hopens
    have hempty := Tree.replaced_put ByteArray.empty hcreates.not_directory
    have hnothing : TakenUpTo replies replies 0 :=
      ⟨[], rfl, List.forall_mem_nil _, Nat.le_refl _, fun h ↦ (h rfl).elim⟩
    have hleaves : Leaves (tree.Replied output replies) (scriptFor format bytes)
        (Answered.perform (generateFile format ifile ofile) replies tree) :=
      leaves_generateFile_of_read (Tree.opensTree_answered replies)
        (Tree.accounts_replied tree output replies) hin (Tree.locateOutput_eq_ok_iff.mpr hcreates)
        ⟨hempty, hnothing⟩ hread
    exact ⟨_, _, _, rfl, Opens.endsOn_of_leaves ⟨hcreates, input, hin, hread⟩ hleaves⟩
  · exact ⟨_, _, _, hrun, .failed hfails hafter⟩

/-! ### Which failure a run ends with -/

/-- A run fails for one cause only. -/
theorem FailsFor.unique {e e' : Error} (h : FailsFor tree ifile ofile e)
    (h' : FailsFor tree ifile ofile e') : e = e' := by
  rw [← result_generateFile_eq_error_iff .autoConf] at h h'
  exact Except.error.inj (h.symm.trans h')

/-- A run opens one output only, and reads the same bytes. -/
theorem Opens.unique {other : Location} {bytes' : ByteArray}
    (h : Opens tree ifile ofile output bytes) (h' : Opens tree ifile ofile other bytes') :
    output = other ∧ bytes = bytes' := by
  obtain ⟨hcreates, input, hin, hread⟩ := h
  obtain ⟨hcreates', input', hin', hread'⟩ := h'
  rw [← Tree.locateOutput_eq_ok_iff] at hcreates hcreates'
  cases hcreates.symm.trans hcreates'
  cases hin.symm.trans hin'
  exact ⟨rfl, Except.ok.inj (hread.symm.trans hread')⟩

namespace EndsOn

variable {result : Except Error Nat} {rest : List Reply} {after : Tree}

/-- A malformed line is what a run ends with, whatever the output refuses, if what is written in
front of it has room in the buffer. -/
theorem result_eq_of_malformed {number : Nat}
    (hends : EndsOn format replies tree ifile ofile result rest after)
    (hfails : FailsFor tree ifile ofile (.line number .multipleSeparators))
    (hopens : Opens tree ifile ofile output bytes)
    (hsize : (generate format bytes none).output.size < bufferSize) :
    result = .error (.line number .multipleSeparators) := by
  cases hends with
  | written hnone => exact (hnone _ hfails).elim
  | malformed hcause => rw [hcause.unique hfails]
  | failed hcause => rw [hcause.unique hfails]
  | refused _ hopens' hlate =>
    obtain ⟨-, rfl⟩ := hopens'.unique hopens
    rcases hlate with hnone | hlate
    · exact (hnone _ hfails).elim
    · exact (Nat.not_le_of_lt hsize hlate).elim

/-- If there is something to be written and nothing else is wrong, a run ends with the failure for
which the output refuses it. -/
theorem result_eq_of_refuses {cause : Files.Error}
    (hends : EndsOn format (.refuses cause :: replies) tree ifile ofile result rest after)
    (hnone : ∀ e, ¬FailsFor tree ifile ofile e) (hopens : Opens tree ifile ofile output bytes)
    (hsize : (generate format bytes none).output.size ≠ 0) : result = .error (.io cause) := by
  cases hends with
  | written _ hopens' _ htaken =>
    obtain ⟨-, rfl⟩ := hopens'.unique hopens
    exact (hsize htaken.size_eq_zero_of_refuses).elim
  | malformed hcause => exact (hnone _ hcause).elim
  | failed hcause => exact (hnone _ hcause).elim
  | refused hfirst => rw [Files.firstFails_refuses_iff.mp hfirst]

end EndsOn

end BootConfig.Config
