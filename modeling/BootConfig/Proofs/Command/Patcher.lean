import BootConfig.Command.Run
import BootConfig.Proofs.Command.Given
import BootConfig.Proofs.Elf.File
import BootConfig.Proofs.Text.Notation

/-!
# What the patcher prints

The tool that sets a symbol tells the value and the offset at which it was written, both in
hexadecimal. A command line that gives one of these numerals back as the value asks for the number
that was meant.
-/

namespace BootConfig.Command

open BootConfig.Files (Store Tree)
open BootConfig.Numeral (Mark hex)

variable {guard : Option String} {args : List String} {file symbol : String} {value : UInt64}

/-! ### Requests -/

/-- A number is that of an option exactly if it is given for it. -/
theorem numberOf?_eq_some_iff {given : List (Opt × Argument)} {option : Opt} :
    numberOf? given option = some value ↔ given.lookup option = some (.number value) := by
  unfold numberOf?
  split
  · next h => rw [h, Option.some.injEq, Option.some.injEq, Argument.number.injEq]
  · next h =>
    constructor
    · intro hnone
      cases hnone
    · intro hsome
      exact (h value hsome).elim

/-- The options that are given ask for a symbol to be set: all three are there. -/
structure AsksToSet (given : List (Opt × Argument)) (file symbol : String) (value : UInt64) :
    Prop where
  file : given.lookup fileOption = some (.text file)
  symbol : given.lookup symbolOption = some (.text symbol)
  value : given.lookup valueOption = some (.number value)

/-- A command line asks for a symbol to be set exactly if the options that it gives do. -/
theorem request_eq_setSymbol_iff :
    Tool.elfconf.request guard args = .ok (.setSymbol file symbol value) ↔
      ∃ given, scanArguments Tool.elfconf.options args = .ok given ∧
        AsksToSet given file symbol value := by
  rw [Tool.request, Tool.requestBy_eq_ok_iff]
  refine exists_congr fun given ↦ and_congr_right fun _ ↦ ?_
  constructor
  · intro hrequest
    obtain ⟨_, hfile, hrequest⟩ := Option.bind_eq_some_iff.mp hrequest
    obtain ⟨_, hsymbol, hrequest⟩ := Option.bind_eq_some_iff.mp hrequest
    obtain ⟨_, hvalue, hrequest⟩ := Option.bind_eq_some_iff.mp hrequest
    cases hrequest
    exact ⟨textOf?_eq_some_iff.mp hfile, textOf?_eq_some_iff.mp hsymbol,
      numberOf?_eq_some_iff.mp hvalue⟩
  · rintro ⟨hfile, hsymbol, hvalue⟩
    rw [Tool.request?, textOf?_eq_some_iff.mpr hfile, textOf?_eq_some_iff.mpr hsymbol,
      numberOf?_eq_some_iff.mpr hvalue]
    rfl

private theorem file_ne_of_request
    (h : Tool.elfconf.request guard args = .ok (.setSymbol file symbol value)) : file ≠ "" := by
  obtain ⟨given, hscan, hasks⟩ := request_eq_setSymbol_iff.mp h
  obtain ⟨text, hcheck⟩ := (checked_scanArguments hscan).check_of_lookup hasks.file
  change (if text = "" then _ else _) = _ at hcheck
  split at hcheck
  · cases hcheck
  · next hne =>
    cases hcheck
    exact hne

/-- A command line that gives a file with a name, a symbol and a numeral asks for this symbol to be
set to what the numeral is read as. -/
theorem request_of_givesAll {text : String} {entries : List (Opt × String)} (hfile : file ≠ "")
    (hread : Numeral.parse text = .ok value)
    (hentries : entries.Perm [(fileOption, file), (symbolOption, symbol), (valueOption, text)])
    (h : GivesAll entries args) :
    Tool.elfconf.request guard args = .ok (.setSymbol file symbol value) := by
  have hfileCheck : fileOption.check file = .ok (.text file) := if_neg hfile
  have hsymbolCheck : symbolOption.check symbol = .ok (.text symbol) := rfl
  have hvalueCheck : valueOption.check text = .ok (.number value) := by
    simp only [Opt.check, valueOption, hread]
  have hdistinct : (entries.map Prod.fst).Nodup :=
    (hentries.map Prod.fst).nodup_iff.mpr
      (show [fileOption, symbolOption, valueOption].Nodup by decide)
  have hknown : ∀ option ∈ Tool.elfconf.options, Known Tool.elfconf.options option :=
    fun _ ↦ Tool.elfconf.known_of_mem
  have hone : ∀ entry ∈ entries, Known Tool.elfconf.options entry.1 ∧
      ∃ argument, entry.1.check entry.2 = .ok argument := by
    intro entry hentry
    rw [hentries.mem_iff] at hentry
    simp only [List.mem_cons, List.not_mem_nil, or_false] at hentry
    rcases hentry with rfl | rfl | rfl
    · exact ⟨hknown fileOption (by decide), _, hfileCheck⟩
    · exact ⟨hknown symbolOption (by decide), _, hsymbolCheck⟩
    · exact ⟨hknown valueOption (by decide), _, hvalueCheck⟩
  obtain ⟨given, hscan, hgiven⟩ :=
    scanArguments_of_givesAll h (fun entry hentry ↦ (hone entry hentry).1) hdistinct
      fun entry hentry ↦ (hone entry hentry).2
  refine request_eq_setSymbol_iff.mpr ⟨given, hscan, ?_, ?_, ?_⟩
  · exact (hgiven _ _).mpr ⟨file, hentries.mem_iff.mpr (by simp), hfileCheck⟩
  · exact (hgiven _ _).mpr ⟨symbol, hentries.mem_iff.mpr (by simp), hsymbolCheck⟩
  · exact (hgiven _ _).mpr ⟨text, hentries.mem_iff.mpr (by simp), hvalueCheck⟩

/-! ### Runs -/

/-- The report on setting a symbol by the result of that. -/
def settingReport (file symbol : String) (value : UInt64) : Except Elf.FileError Nat → Report
  | .ok offset => ⟨0, "", patchedLine file symbol value offset⟩
  | .error e => ⟨1, "", (setSymbolFailure file symbol e).text⟩

/-- The patcher sets the symbol that it is asked to, and reports on the result. -/
theorem run_of_setSymbol {m : Type → Type} {handle : Type} [Monad m] [LawfulMonad m]
    [Store m handle] (h : Tool.elfconf.request guard args = .ok (.setSymbol file symbol value)) :
    (Tool.elfconf.run guard args : m Report) =
      settingReport file symbol value <$> (Elf.setSymbol file symbol value).run := by
  rw [Tool.request] at h
  rw [Tool.run, Tool.runBy, h, map_eq_pure_bind]
  change (Request.setSymbol file symbol value).run = _
  rw [Request.run]
  refine bind_congr fun result ↦ ?_
  cases result <;> rfl

private theorem run_of_setSymbol_on
    (h : Tool.elfconf.request guard args = .ok (.setSymbol file symbol value)) (tree : Tree) :
    StateT.run (Tool.elfconf.run guard args : StateM Tree Report) tree =
      (settingReport file symbol value (Tree.perform (Elf.setSymbol file symbol value) tree).1,
        (Tree.perform (Elf.setSymbol file symbol value) tree).2) := by
  rw [run_of_setSymbol h]
  rfl

/-- If the patcher succeeds, the symbol is set, and the report tells to what and where. -/
theorem report_of_exitCode_eq_zero {tree after : Tree} {report : Report}
    (h : Tool.elfconf.request guard args = .ok (.setSymbol file symbol value))
    (hrun : StateT.run (Tool.elfconf.run guard args : StateM Tree Report) tree = (report, after))
    (hcode : report.exitCode = 0) :
    ∃ offset : UInt64,
      Tree.perform (Elf.setSymbol file symbol value) tree = (.ok offset.toNat, after) ∧
      report = ⟨0, "", patchedLine file symbol value offset.toNat⟩ := by
  rw [run_of_setSymbol_on h] at hrun
  cases hset : Tree.perform (Elf.setSymbol file symbol value) tree with
  | mk result final =>
    rw [hset] at hrun
    cases hrun
    cases result with
    | error e => cases hcode
    | ok offset =>
      obtain ⟨_, _, patch, -, -, hpatch, rfl⟩ := Elf.exists_patch_of_perform_setSymbol hset
      have hoffset : (UInt64.ofNat patch.offset).toNat = patch.offset :=
        UInt64.toNat_ofNat_of_lt' (Nat.lt_trans (Elf.Patch.offset_lt hpatch) (by decide))
      exact ⟨.ofNat patch.offset, by rw [hoffset], by rw [hoffset]; rfl⟩

/-- Every number is read from its decimal digits, and from its digits in another base behind what
announces that base and any zeros, with letters in either case. So what the patcher prints on
success, the value and the offset, is read as these numbers: a command line that gives one of them
back as the value, in whichever way and order its options are given, asks for that number. -/
theorem printed_numbers_read_back :
    (∀ value : UInt64, Numeral.parse (toString value.toNat) = .ok value ∧
      ∀ mark base digits zeros, Mark mark base →
        digits.map Char.toLower = Nat.toDigits base value.toNat →
          Numeral.parse (String.ofList (mark ++ (List.replicate zeros '0' ++ digits))) =
            .ok value) ∧
    ∀ (guard : Option String) (args : List String) (tree after : Tree) (report : Report)
      (file symbol : String) (value : UInt64),
      Tool.elfconf.request guard args = .ok (.setSymbol file symbol value) →
      StateT.run (Tool.elfconf.run guard args : StateM Tree Report) tree = (report, after) →
      report.exitCode = 0 →
      ∃ offset : UInt64,
        Tree.perform (Elf.setSymbol file symbol value) tree = (.ok offset.toNat, after) ∧
        report.stderr = file ++ ": " ++ symbol ++ " = " ++ hex value.toNat ++ " @ " ++
          hex offset.toNat ++ "\n" ∧
        ∀ number ∈ [value, offset],
          Numeral.parse (hex number.toNat) = .ok number ∧
          ∀ entries again, entries.Perm [(fileOption, file), (symbolOption, symbol),
              (valueOption, hex number.toNat)] → GivesAll entries again →
            Tool.elfconf.request guard again = .ok (.setSymbol file symbol number) := by
  constructor
  · exact fun value ↦ ⟨Numeral.parse_toString value,
      fun mark base digits zeros hmark hdigits ↦ Numeral.parse_toDigits hmark hdigits zeros⟩
  intro guard args tree after report file symbol value hrequest hrun hcode
  obtain ⟨offset, hset, rfl⟩ := report_of_exitCode_eq_zero hrequest hrun hcode
  refine ⟨offset, hset, rfl, ?_⟩
  intro number _
  have hread := Numeral.parse_hex number
  exact ⟨hread, fun entries again hentries hgives ↦
    request_of_givesAll (file_ne_of_request hrequest) hread hentries hgives⟩

/-- The largest number is read from its octal digits behind further zeros. In the small image a
symbol is set, and the offset that this reports is a value to be set. -/
theorem printed_numbers_read_back_sample :
    "1777777777777777777777".toList.map Char.toLower =
        Nat.toDigits 8 (0xffffffffffffffff : UInt64).toNat ∧
      Numeral.parse "000001777777777777777777777" = .ok 0xffffffffffffffff ∧
    Tool.elfconf.request none ["--file=s.elf", "-s", "stage_addr", "-v0X12345678"] =
        .ok (.setSymbol "s.elf" "stage_addr" 0x12345678) ∧
      (∃ after, StateT.run (Tool.elfconf.run none
          ["--file=s.elf", "-s", "stage_addr", "-v0X12345678"] : StateM Tree Report)
            Elf.imageTree = (⟨0, "", "s.elf: stage_addr = 0x12345678 @ 0x40\n"⟩, after)) ∧
      Tool.elfconf.request none ["--value", "0x40", "-fs.elf", "--symbol=stage_addr"] =
        .ok (.setSymbol "s.elf" "stage_addr" 0x40) := by
  have hoctal : "1777777777777777777777".toList.map Char.toLower =
      Nat.toDigits 8 (0xffffffffffffffff : UInt64).toNat := by
    decide +kernel
  have hrequest : Tool.elfconf.request none ["--file=s.elf", "-s", "stage_addr", "-v0X12345678"] =
      .ok (.setSymbol "s.elf" "stage_addr" 0x12345678) := by
    decide +kernel
  have hpath : Elf.imageTree.locate "s.elf" = .ok ["s.elf"] := rfl
  have hcontent : Elf.imageTree.content ["s.elf"] = .ok Elf.Layout.sampleBytes := rfl
  have hmake : (Elf.Layout.sampleSetting.make Elf.Layout.sampleBytes).2 =
      .ok Elf.Layout.samplePatch :=
    (Elf.Setting.make_snd _ _).trans Elf.Layout.ofBytes_sample
  have hset := (Elf.setsInFile_of_made hpath hcontent hmake).perform
  have hrun := run_of_setSymbol_on hrequest Elf.imageTree
  have hresult := congrArg Prod.fst hset
  change (Tree.perform (Elf.setSymbol "s.elf" "stage_addr" 0x12345678) Elf.imageTree).1 =
    .ok 0x40 at hresult
  rw [hresult] at hrun
  obtain ⟨offset, hperform, -, hprinted⟩ :=
    printed_numbers_read_back.2 _ _ _ _ _ _ _ _ hrequest hrun rfl
  have hoffset : offset = 0x40 := by
    rw [hperform] at hresult
    exact UInt64.toNat_inj.mp (Except.ok.inj hresult)
  subst hoffset
  have hentries : [(valueOption, "0x40"), (fileOption, "s.elf"), (symbolOption, "stage_addr")].Perm
      [(fileOption, "s.elf"), (symbolOption, "stage_addr"),
        (valueOption, hex (0x40 : UInt64).toNat)] := by
    decide +kernel
  have hplain : ∀ c cs, "0x40".toList ≠ '-' :: c :: cs := fun _ _ h ↦
    absurd (congrArg List.head? h) (show "0x40".toList.head? ≠ some '-' by decide)
  have hgives : GivesAll
      [(valueOption, "0x40"), (fileOption, "s.elf"), (symbolOption, "stage_addr")]
      ["--value", "0x40", "-fs.elf", "--symbol=stage_addr"] :=
    .cons (.long hplain) (.cons (.shortAttached rfl rfl (by decide)) (.cons .longAttached .nil))
  exact ⟨hoctal, (printed_numbers_read_back.1 _).2 _ _ _ 4 .octal hoctal, hrequest, ⟨_, hrun⟩,
    (hprinted _ (by simp)).2 _ _ hentries hgives⟩

end BootConfig.Command
