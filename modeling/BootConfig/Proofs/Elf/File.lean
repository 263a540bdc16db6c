import BootConfig.Elf.File
import BootConfig.Proofs.Elf.Setting
import BootConfig.Proofs.Files.Change
import BootConfig.Proofs.Files.Journal

/-!
# Setting a symbol in a file

Setting a symbol in a file has the effect of making the setting in the bytes of the file and writing
them all back, although only the bytes of the patch are written. Where it fails, it fails before
anything is written.
-/

namespace BootConfig.Elf

open BootConfig.Files (Change Location ReadsTree Stateful Store Tree perform)

/-- Setting a symbol in a file ends with the given result, makes the given changes, and leaves the
given tree; on a tree without a journal it does the same. -/
structure SetsInFile (tree : Tree) (path : String) (setting : Setting)
    (result : Except FileError Nat) (changes : List Change) (after : Tree) : Prop where
  perform : Tree.perform (setSymbol path setting.name setting.value) tree = (result, after)
  record : Tree.record (setSymbol path setting.name setting.value) [] tree =
    ((result, changes), after)

variable {tree : Tree} {path : String} {setting : Setting} {location : Location}
  {content image : ByteArray}

section State

variable {m : Type → Type} {σ : Type} [Monad m] [LawfulMonad m] [Stateful m σ] [Store m Location]
  {state : Tree → σ}

private theorem perform_setSymbol_of_not_opened (hreads : ReadsTree m state) {e : Files.Error}
    (h : tree.locate path = .error e) :
    perform (setSymbol path setting.name setting.value : ExceptT FileError m Nat) (state tree) =
      (.error (.unreadable e), state tree) := by
  have hopen := hreads.openInput tree path
  rw [h] at hopen
  exact Files.perform_bind_of_error (Files.perform_adapt _ hopen)

private theorem perform_setSymbol_of_not_read (hreads : ReadsTree m state) {e : Files.Error}
    (hpath : tree.locate path = .ok location) (h : tree.content location = .error e) :
    perform (setSymbol path setting.name setting.value : ExceptT FileError m Nat) (state tree) =
      (.error (.unreadable e), state tree) := by
  have hopen := hreads.openInput tree path
  have hread := hreads.readAll tree location
  rw [hpath] at hopen
  rw [h] at hread
  rw [setSymbol, Files.perform_bind_of_ok (Files.perform_adapt _ hopen)]
  exact Files.perform_bind_of_error (Files.perform_adapt _ hread)

private theorem perform_setSymbol_of_read (hreads : ReadsTree m state)
    (hpath : tree.locate path = .ok location) (h : tree.content location = .ok content) :
    perform (setSymbol path setting.name setting.value : ExceptT FileError m Nat) (state tree) =
      perform (do
        let patch ← liftExcept ((setting.make content).2.mapError FileError.unpatchable)
        ExceptT.adapt FileError.unwritable (Store.overwrite path patch.offset patch.bytes)
        return patch.offset : ExceptT FileError m Nat) (state tree) := by
  have hopen := hreads.openInput tree path
  have hread := hreads.readAll tree location
  rw [hpath] at hopen
  rw [h] at hread
  rw [setSymbol, Files.perform_bind_of_ok (Files.perform_adapt _ hopen),
    Files.perform_bind_of_ok (Files.perform_adapt _ hread), Setting.make_snd]

private theorem perform_setSymbol_of_not_made (hreads : ReadsTree m state) {e : Error}
    (hpath : tree.locate path = .ok location) (h : tree.content location = .ok content)
    (hmake : (setting.make content).2 = .error e) :
    perform (setSymbol path setting.name setting.value : ExceptT FileError m Nat) (state tree) =
      (.error (.unpatchable e), state tree) := by
  rw [perform_setSymbol_of_read hreads hpath h, hmake]
  exact Files.perform_bind_of_error (Files.perform_liftExcept _ _)

private theorem perform_setSymbol_of_made (hreads : ReadsTree m state) {patch : Patch} {after : σ}
    (hpath : tree.locate path = .ok location) (h : tree.content location = .ok content)
    (hmake : (setting.make content).2 = .ok patch)
    (hwrite : perform (Store.overwrite path patch.offset patch.bytes : ExceptT Files.Error m Unit)
      (state tree) = (.ok (), after)) :
    perform (setSymbol path setting.name setting.value : ExceptT FileError m Nat) (state tree) =
      (.ok patch.offset, after) := by
  rw [perform_setSymbol_of_read hreads hpath h, hmake, Except.mapError,
    Files.perform_bind_of_ok (Files.perform_liftExcept _ _),
    Files.perform_bind_of_ok (Files.perform_adapt _ hwrite), Files.perform_pure]

end State

private theorem setsInFile_of_not_opened {e : Files.Error} (h : tree.locate path = .error e) :
    SetsInFile tree path setting (.error (.unreadable e)) [] tree where
  perform := perform_setSymbol_of_not_opened Tree.opensTree.toReadsTree h
  record := Tree.record_eq_iff.mpr (perform_setSymbol_of_not_opened (Tree.readsTree_journal []) h)

private theorem setsInFile_of_not_read {e : Files.Error} (hpath : tree.locate path = .ok location)
    (h : tree.content location = .error e) :
    SetsInFile tree path setting (.error (.unreadable e)) [] tree where
  perform := perform_setSymbol_of_not_read Tree.opensTree.toReadsTree hpath h
  record :=
    Tree.record_eq_iff.mpr (perform_setSymbol_of_not_read (Tree.readsTree_journal []) hpath h)

private theorem setsInFile_of_not_made {e : Error} (hpath : tree.locate path = .ok location)
    (h : tree.content location = .ok content) (hmake : (setting.make content).2 = .error e) :
    SetsInFile tree path setting (.error (.unpatchable e)) [] tree where
  perform := perform_setSymbol_of_not_made Tree.opensTree.toReadsTree hpath h hmake
  record := Tree.record_eq_iff.mpr
    (perform_setSymbol_of_not_made (Tree.readsTree_journal []) hpath h hmake)

/-- Where the setting can be made, the bytes of the patch are written at its offset. -/
theorem setsInFile_of_made {patch : Patch} (hpath : tree.locate path = .ok location)
    (h : tree.content location = .ok content) (hmake : (setting.make content).2 = .ok patch) :
    SetsInFile tree path setting (.ok patch.offset)
      [.overwritten path patch.offset patch.bytes]
      (tree.put location (.file (patch.apply content))) := by
  have hwrite := Tree.perform_overwrite_of_ok patch.offset patch.bytes hpath h
  rw [← Tree.perform_eq] at hwrite
  have hrecord := Tree.perform_recorded_of_ok
    (fun _ ↦ .overwritten path patch.offset patch.bytes) [] hwrite
  exact ⟨perform_setSymbol_of_made Tree.opensTree.toReadsTree hpath h hmake hwrite,
    Tree.record_eq_iff.mpr
      (perform_setSymbol_of_made (Tree.readsTree_journal []) hpath h hmake hrecord)⟩

/-- A symbol that is set in a file is set at the offset of a patch that is found in its bytes. -/
theorem exists_patch_of_perform_setSymbol {name : String} {value : UInt64} {offset : Nat}
    {after : Tree} (h : Tree.perform (setSymbol path name value) tree = (.ok offset, after)) :
    ∃ location content patch, tree.locate path = .ok location ∧
      tree.content location = .ok content ∧ Patch.ofBytes content name value = .ok patch ∧
      patch.offset = offset := by
  let setting : Setting := ⟨name, value⟩
  cases hpath : tree.locate path with
  | error e =>
    have hsets : SetsInFile tree path setting _ _ _ := setsInFile_of_not_opened hpath
    cases hsets.perform.symm.trans h
  | ok location =>
    cases hcontent : tree.content location with
    | error e =>
      have hsets : SetsInFile tree path setting _ _ _ := setsInFile_of_not_read hpath hcontent
      cases hsets.perform.symm.trans h
    | ok content =>
      cases hmake : (setting.make content).2 with
      | error e => cases (setsInFile_of_not_made hpath hcontent hmake).perform.symm.trans h
      | ok patch =>
        cases (setsInFile_of_made hpath hcontent hmake).perform.symm.trans h
        exact ⟨location, content, patch, rfl, hcontent, setting.make_snd content ▸ hmake, rfl⟩

/-- Setting a symbol in a file answers as the setting made in the bytes of the file does. If there
is a patch, the file holds afterwards what the setting makes of its bytes, and everything else is
what and where it was, although of these bytes only those in the range of the patch are written, at
its start. If there is none, or if the file cannot be opened or read, nothing is written and the
tree is as it was. -/
theorem setSymbol_sets_in_file (tree : Tree) (path : String) (setting : Setting) :
    (∀ e, tree.CannotOpen path e →
      SetsInFile tree path setting (.error (.unreadable e)) [] tree) ∧
    ((∀ e, ¬tree.CannotOpen path e) → ∃ location, tree.locate path = .ok location ∧
      (tree.node? location = some .directory →
        SetsInFile tree path setting (.error (.unreadable .isDirectory)) [] tree) ∧
      ∀ content, tree.node? location = some (.file content) →
        (∀ e image, setting.make content = (image, .error e) →
          SetsInFile tree path setting (.error (.unpatchable e)) [] tree) ∧
        ∀ patch image, setting.make content = (image, .ok patch) →
          image.size = content.size ∧
          ∃ written after,
            Bytes.slice? image patch.offset (patch.stop - patch.offset) = some written ∧
            SetsInFile tree path setting (.ok patch.offset)
              [.overwritten path patch.offset written] after ∧
            tree.Replaced location image after ∧
            ∀ other there, after.locate other = .ok there ↔ tree.locate other = .ok there) := by
  constructor
  · exact fun e h ↦ setsInFile_of_not_opened (Tree.locate_eq_error_iff.mpr h)
  intro hopens
  obtain ⟨location, hpath⟩ : ∃ location, tree.locate path = .ok location := by
    cases h : tree.locate path with
    | error e => exact (hopens e (Tree.locate_eq_error_iff.mp h)).elim
    | ok location => exact ⟨location, rfl⟩
  refine ⟨location, hpath, ?_, ?_⟩
  · intro hdir
    exact setsInFile_of_not_read hpath (by rw [Tree.content, hdir])
  intro content hfile
  have hcontent : tree.content location = .ok content := by rw [Tree.content, hfile]
  constructor
  · intro e image hmake
    exact setsInFile_of_not_made hpath hcontent (by rw [hmake])
  intro patch image hmake
  have hfound : Patch.ofBytes content setting.name setting.value = .ok patch := by
    rw [← Setting.make_snd, hmake]
  have himage : image = patch.apply content := by
    rw [Setting.make_of_ok hfound] at hmake
    exact (congrArg Prod.fst hmake).symm
  subst himage
  have hin := Patch.stop_le_size hfound
  have hafter : tree.Replaced location (patch.apply content) _ :=
    Tree.replaced_put _ (by simp [hfile])
  refine ⟨patch.size_apply content hin, patch.bytes, _, ?_,
    setsInFile_of_made hpath hcontent (by rw [hmake]), hafter, ?_⟩
  · rw [Patch.stop, Nat.add_sub_cancel_left]
    exact Bytes.slice?_overwrite content patch.offset patch.bytes hin
  · exact hafter.locate_iff_of_isSome (by rw [hfile]; rfl)

/-- A tree with the small image in a file, another file, and a directory. -/
def imageTree : Tree :=
  ⟨[], [(["s.elf"], .file Layout.sampleBytes), (["other"], .file "old".toUTF8),
    (["dir"], .directory)]⟩

/-- In the small image the first symbol is set. What is no image, the directory and a missing file
leave the tree as it is. -/
theorem setSymbol_sets_in_file_sample :
    imageTree.CannotOpen "missing" .notFound ∧
    SetsInFile imageTree "missing" Layout.sampleSetting (.error (.unreadable .notFound)) []
      imageTree ∧
    SetsInFile imageTree "dir" Layout.sampleSetting (.error (.unreadable .isDirectory)) []
      imageTree ∧
    SetsInFile imageTree "other" Layout.sampleSetting (.error (.unpatchable .notElf)) []
      imageTree ∧
    ∃ after,
      SetsInFile imageTree "dir/../s.elf" Layout.sampleSetting (.ok 0x40)
        [.overwritten "dir/../s.elf" 0x40 [0x12, 0x34, 0x56, 0x78]] after ∧
      after.node? ["s.elf"] = some (.file (Layout.samplePatch.apply Layout.sampleBytes)) ∧
      after.node? ["other"] = some (.file "old".toUTF8) := by
  have hmissing : imageTree.CannotOpen "missing" .notFound := Tree.locate_eq_error_iff.mp rfl
  have hdir : imageTree.locate "dir" = .ok ["dir"] := rfl
  have hother : imageTree.locate "other" = .ok ["other"] := rfl
  have hpath : imageTree.locate "dir/../s.elf" = .ok ["s.elf"] := rfl
  have hnone : Layout.sampleSetting.make "old".toUTF8 = ("old".toUTF8, .error .notElf) :=
    Setting.make_of_error (by decide +kernel)
  refine ⟨hmissing, (setSymbol_sets_in_file _ _ _).1 _ hmissing, ?_, ?_, ?_⟩
  · obtain ⟨location, hlocated, hdirectory, -⟩ :=
      (setSymbol_sets_in_file imageTree "dir" Layout.sampleSetting).2 (Tree.not_cannotOpen hdir)
    cases hlocated.symm.trans hdir
    exact hdirectory rfl
  · obtain ⟨location, hlocated, -, hrun⟩ :=
      (setSymbol_sets_in_file imageTree "other" Layout.sampleSetting).2
        (Tree.not_cannotOpen hother)
    cases hlocated.symm.trans hother
    exact (hrun _ rfl).1 _ _ hnone
  · obtain ⟨location, hlocated, -, hrun⟩ :=
      (setSymbol_sets_in_file imageTree "dir/../s.elf" Layout.sampleSetting).2
        (Tree.not_cannotOpen hpath)
    cases hlocated.symm.trans hpath
    obtain ⟨-, written, after, hwritten, hsets, hafter, -⟩ :=
      (hrun _ rfl).2 _ _ (Setting.make_of_ok Layout.ofBytes_sample)
    have hbytes : Bytes.slice? (Layout.samplePatch.apply Layout.sampleBytes) 0x40 4 =
        some [0x12, 0x34, 0x56, 0x78] :=
      Bytes.slice?_overwrite _ _ _ (Patch.stop_le_size Layout.ofBytes_sample)
    cases hwritten.symm.trans hbytes
    exact ⟨after, hsets, hafter.node?_self, hafter.node?_of_ne ["other"] (by decide)⟩

end BootConfig.Elf
