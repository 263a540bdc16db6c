import BootConfig.Proofs.Command.Report
import BootConfig.Proofs.Command.Request
import BootConfig.Proofs.Config.Answered

/-!
# How a generator ends

A generator whose command line makes no sense reports that and does nothing else. Otherwise it
announces the file that it writes, does what its options ask, and tells by its exit code whether
that went well. A failure is reported by its cause: the files as they were decide it, or the output
that refuses what is written to it. What reads the command line is a parameter; it has to check the
values of the options that it gives.
-/

namespace BootConfig.Command

open BootConfig.Config (EndsOn FailsFor generateFile)
open BootConfig.Files (Answered FirstFails Reply Store Tree)

/-- The line by which a tool announces the file that it generates. -/
def Tool.announcement : Tool → String → String
  | .builtin, ofile => "  BUILTIN " ++ ofile ++ "\n"
  | .genconf, ofile => "  GENCONF " ++ ofile ++ "\n"
  | .elfconf, _ => ""

/-- The report on a run of a generator by the result of that. -/
def Tool.reportOn (tool : Tool) (ifile ofile : String) : Except Config.Error Nat → Report
  | .ok _ => ⟨0, tool.announcement ofile, ""⟩
  | .error (.line number _) =>
    ⟨1, tool.announcement ofile,
      failureText ifile ofile ("line " ++ toString number) "more than one `=` in assignment"⟩
  | .error (.io cause) =>
    ⟨1, tool.announcement ofile,
      failureText ifile ofile "I/O error" (indentLines (List.replicate 7 ' ') cause.message)⟩

/-- How a generator ends on a file tree whose output answers writes with the given replies: the
report, the replies that are left, and the tree. -/
inductive Ends (parser : Parser) (tool : Tool) (guard : Option String) (args : List String)
    (replies : List Reply) (tree : Tree) : Report × (List Reply × Tree) → Prop where
  /-- The command line makes no sense. -/
  | misused {e : UsageError} (h : Misuses parser tool args e) :
      Ends parser tool guard args replies tree (⟨2, "", parser.text e⟩, (replies, tree))
  /-- The output holds everything. -/
  | generated {given : List (Opt × Argument)} {format : Config.Format} {ifile ofile : String}
      {count : Nat} {left : List Reply × Tree} (hscan : parser.scan tool.options args = .ok given)
      (hasks : Asks guard given tool format ifile ofile)
      (hrun : Answered.perform (generateFile format ifile ofile) replies tree = (.ok count, left))
      (hends : EndsOn format replies tree ifile ofile (.ok count) left.1 left.2) :
      Ends parser tool guard args replies tree (⟨0, tool.announcement ofile, ""⟩, left)
  /-- A line is malformed. -/
  | malformed {given : List (Opt × Argument)} {format : Config.Format} {ifile ofile : String}
      {number : Nat} {left : List Reply × Tree}
      (hscan : parser.scan tool.options args = .ok given)
      (hasks : Asks guard given tool format ifile ofile)
      (hrun : Answered.perform (generateFile format ifile ofile) replies tree =
        (.error (.line number .multipleSeparators), left))
      (hends : EndsOn format replies tree ifile ofile (.error (.line number .multipleSeparators))
        left.1 left.2)
      (hcause : FailsFor tree ifile ofile (.line number .multipleSeparators)) :
      Ends parser tool guard args replies tree
        (⟨1, tool.announcement ofile,
          failureText ifile ofile ("line " ++ toString number) "more than one `=` in assignment"⟩,
        left)
  /-- Something is wrong with the files as they are. -/
  | failed {given : List (Opt × Argument)} {format : Config.Format} {ifile ofile : String}
      {cause : Files.Error} {left : List Reply × Tree}
      (hscan : parser.scan tool.options args = .ok given)
      (hasks : Asks guard given tool format ifile ofile)
      (hrun : Answered.perform (generateFile format ifile ofile) replies tree =
        (.error (.io cause), left))
      (hends : EndsOn format replies tree ifile ofile (.error (.io cause)) left.1 left.2)
      (hcause : FailsFor tree ifile ofile (.io cause)) :
      Ends parser tool guard args replies tree
        (⟨1, tool.announcement ofile, failureText ifile ofile "I/O error" cause.message⟩, left)
  /-- The output refuses something. -/
  | refused {given : List (Opt × Argument)} {format : Config.Format} {ifile ofile : String}
      {cause : Files.Error} {left : List Reply × Tree}
      (hscan : parser.scan tool.options args = .ok given)
      (hasks : Asks guard given tool format ifile ofile)
      (hrun : Answered.perform (generateFile format ifile ofile) replies tree =
        (.error (.io cause), left))
      (hends : EndsOn format replies tree ifile ofile (.error (.io cause)) left.1 left.2)
      (hcause : FirstFails replies cause) :
      Ends parser tool guard args replies tree
        (⟨1, tool.announcement ofile,
          failureText ifile ofile "I/O error" (indentLines (List.replicate 7 ' ') cause.message)⟩,
        left)

variable {parser : Parser} {tool : Tool} {guard : Option String} {args : List String}
  {given : List (Opt × Argument)} {format : Config.Format} {ifile ofile : String}

private theorem Asks.progress_eq (h : Asks guard given tool format ifile ofile) :
    progress format ofile = tool.announcement ofile := by
  cases h <;> rfl

section Run

variable {m : Type → Type} {handle : Type} [Monad m] [Store m handle]

/-- A tool that is misused does nothing but say so. -/
theorem run_of_misuses {e : UsageError} (h : Misuses parser tool args e) :
    (tool.runBy parser guard args : m Report) = pure ⟨2, "", parser.text e⟩ := by
  rw [Tool.runBy, h.requestBy_eq]
  rfl

/-- A generator does what it is asked for, and reports on the result. -/
theorem run_of_asks [LawfulMonad m] (hparser : parser.ChecksValues)
    (hscan : parser.scan tool.options args = .ok given)
    (hasks : Asks guard given tool format ifile ofile) :
    (tool.runBy parser guard args : m Report) =
      tool.reportOn ifile ofile <$> (generateFile format ifile ofile).run := by
  have hrequest := (Tool.requestBy_eq_generate_iff hparser).mpr ⟨given, hscan, hasks⟩
  rw [Tool.runBy, hrequest, map_eq_pure_bind]
  change (Request.generate format ifile ofile).run = _
  rw [Request.run]
  refine bind_congr fun result ↦ ?_
  rw [hasks.progress_eq]
  rcases result with (cause | ⟨number, fault⟩) | count
  · simp only [text_generateFailure_io, Tool.reportOn]
  · simp only [text_generateFailure_line, Tool.reportOn]
  · rfl

end Run

private theorem run_of_asks_on (hparser : parser.ChecksValues)
    (hscan : parser.scan tool.options args = .ok given)
    (hasks : Asks guard given tool format ifile ofile) {replies : List Reply} {tree : Tree}
    {result : Except Config.Error Nat} {left : List Reply × Tree}
    (hrun : Answered.perform (generateFile format ifile ofile) replies tree = (result, left)) :
    Files.Stateful.run (tool.runBy parser guard args : Answered Report) (replies, tree) =
      (tool.reportOn ifile ofile result, left) := by
  rw [Answered.perform, Files.perform] at hrun
  rw [run_of_asks hparser hscan hasks, map_eq_pure_bind, Files.Stateful.run_bind, hrun,
    Files.Stateful.run_pure]

private theorem ends_of_asks (hparser : parser.ChecksValues)
    (hscan : parser.scan tool.options args = .ok given)
    (hasks : Asks guard given tool format ifile ofile) (replies : List Reply) (tree : Tree) :
    Ends parser tool guard args replies tree
      (Files.Stateful.run (tool.runBy parser guard args : Answered Report) (replies, tree)) := by
  obtain ⟨result, rest, after, hrun, hends⟩ :=
    Config.endsOn_generateFile format replies tree ifile ofile
  rw [run_of_asks_on hparser hscan hasks hrun]
  cases hends with
  | written hnone hopens hresult htaken hafter =>
    exact .generated hscan hasks hrun (.written hnone hopens hresult htaken hafter)
  | malformed hcause hopens hsplit hrefused hafter =>
    exact .malformed hscan hasks hrun (.malformed hcause hopens hsplit hrefused hafter) hcause
  | failed hcause hafter =>
    rw [Tool.reportOn, indentLines_of_notMem hcause.isKnown.newline_notMem]
    exact .failed hscan hasks hrun (.failed hcause hafter) hcause
  | refused hfirst hopens hlate hsplit hafter =>
    exact .refused hscan hasks hrun (.refused hfirst hopens hlate hsplit hafter) hfirst

/-- A generator that is asked for a file reports how that ended. -/
theorem Ends.exists_endsOn (hparser : parser.ChecksValues)
    (hrequest : tool.requestBy parser guard args = .ok (.generate format ifile ofile))
    {replies : List Reply} {tree : Tree} {outcome : Report × (List Reply × Tree)}
    (hends : Ends parser tool guard args replies tree outcome) :
    ∃ result, outcome.1 = tool.reportOn ifile ofile result ∧
      EndsOn format replies tree ifile ofile result outcome.2.1 outcome.2.2 := by
  have hsame {given : List (Opt × Argument)} {format' : Config.Format} {ifile' ofile' : String}
      (hscan : parser.scan tool.options args = .ok given)
      (hasks : Asks guard given tool format' ifile' ofile') :
      Request.generate format' ifile' ofile' = .generate format ifile ofile :=
    Except.ok.inj (((Tool.requestBy_eq_generate_iff hparser).mpr ⟨given, hscan, hasks⟩).symm.trans
      hrequest)
  cases hends with
  | misused hmisuses => cases hmisuses.requestBy_eq.symm.trans hrequest
  | generated hscan hasks _ hends =>
    cases hsame hscan hasks
    exact ⟨_, rfl, hends⟩
  | malformed hscan hasks _ hends =>
    cases hsame hscan hasks
    exact ⟨_, rfl, hends⟩
  | failed hscan hasks _ hends hcause =>
    cases hsame hscan hasks
    refine ⟨_, ?_, hends⟩
    rw [Tool.reportOn, indentLines_of_notMem hcause.isKnown.newline_notMem]
  | refused hscan hasks _ hends =>
    cases hsame hscan hasks
    exact ⟨_, rfl, hends⟩

/-- A generator that is not asked for help or for its version ends on every file tree as its command
line, the tree and the output say, which may refuse what is written to it at any time. Either the
generator is misused, and does nothing but say so, or it does what its options ask, and wherever
files are kept it reports on the result of that. -/
theorem generator_ends (hparser : parser.ChecksValues) (htool : tool ≠ .elfconf)
    (hhelp : parser.scan tool.options args ≠ .error .help)
    (hversion : parser.scan tool.options args ≠ .error .version) :
    (∀ replies tree, Ends parser tool guard args replies tree
      (Files.Stateful.run (tool.runBy parser guard args : Answered Report) (replies, tree))) ∧
    ((∃ e, Misuses parser tool args e ∧
      ∀ (m : Type → Type) (handle : Type) [Monad m] [Store m handle],
        (tool.runBy parser guard args : m Report) = pure ⟨2, "", parser.text e⟩) ∨
    ∃ given format ifile ofile, parser.scan tool.options args = .ok given ∧
      Asks guard given tool format ifile ofile ∧
      ∀ (m : Type → Type) (handle : Type) [Monad m] [LawfulMonad m] [Store m handle],
        (tool.runBy parser guard args : m Report) =
          tool.reportOn ifile ofile <$> (generateFile format ifile ofile).run) := by
  rcases misuses_or_asks guard hparser htool hhelp hversion with
    ⟨e, hmisuses⟩ | ⟨given, format, ifile, ofile, hscan, hasks⟩
  · refine ⟨?_, .inl ⟨e, hmisuses, fun m handle ↦ run_of_misuses hmisuses⟩⟩
    intro replies tree
    rw [run_of_misuses hmisuses, Files.Stateful.run_pure]
    exact .misused hmisuses
  · exact ⟨ends_of_asks hparser hscan hasks,
      .inr ⟨given, format, ifile, ofile, hscan, hasks, fun m handle ↦
        run_of_asks hparser hscan hasks⟩⟩

/-- The failure of a write for which there is no space. -/
def noSpace : Files.Error :=
  .other "No space left on device (os error 28)"

/-- The output refuses the first write. A malformed second line is reported all the same, as what is
written in front of it waits until it is found. Without such a line, the refusal is reported. A
header has no default name, and nothing is done if it is not named. -/
theorem generator_ends_sample :
    (Files.Stateful.run (Tool.builtin.runBy .standard none ["-i", "in"] : Answered Report)
        ([.refuses noSpace], Config.sampleTree)).1 =
      ⟨1, "  BUILTIN auto.conf\n",
        failureText "in" "auto.conf" "line 2" "more than one `=` in assignment"⟩ ∧
    (Files.Stateful.run (Tool.builtin.runBy .standard none ["-i", "in"] : Answered Report)
        ([.refuses noSpace], Config.singleTree)).1 =
      ⟨1, "  BUILTIN auto.conf\n",
        failureText "in" "auto.conf" "I/O error" "No space left on device (os error 28)"⟩ ∧
    Files.Stateful.run (Tool.genconf.runBy .standard none ["-i", "in"] : Answered Report)
        ([], Config.sampleTree) =
      (⟨2, "", (UsageError.missingOptions [ofileOption]).text⟩, ([], Config.sampleTree)) := by
  have hparser := Parser.checksValues_standard
  have hgenerate : Tool.builtin.requestBy .standard none ["-i", "in"] =
      .ok (.generate .autoConf "in" "auto.conf") := by
    decide +kernel
  have hhelp (tool : Tool) : Parser.standard.scan tool.options ["-i", "in"] ≠ .error .help := by
    cases tool <;> decide +kernel
  have hversion (tool : Tool) :
      Parser.standard.scan tool.options ["-i", "in"] ≠ .error .version := by
    cases tool <;> decide +kernel
  obtain ⟨hends, -⟩ := generator_ends hparser (by decide) (hhelp .builtin) (hversion .builtin)
  refine ⟨?_, ?_, ?_⟩
  · have hlines : (Text.lines "A=y\nB=1=2\n")[1]? = some "B=1=2" := by decide +kernel
    obtain ⟨hwritten, -⟩ := Config.generate_of_malformed .autoConf hlines (by decide +kernel)
      (by decide +kernel)
    have hopens : Config.Opens Config.sampleTree "in" "auto.conf" ["auto.conf"]
        "A=y\nB=1=2\n".toUTF8 :=
      ⟨Tree.locateOutput_eq_ok_iff.mp rfl, ["in"], rfl, rfl⟩
    have hline : FailsFor Config.sampleTree "in" "auto.conf" (.line 2 .multipleSeparators) :=
      .malformed rfl hopens.creates (by decide) rfl
        ⟨["A=y"], "B=1=2", [], by decide +kernel, rfl, by decide +kernel, by decide +kernel⟩
    obtain ⟨result, hreport, hresult⟩ :=
      (hends [.refuses noSpace] Config.sampleTree).exists_endsOn hparser hgenerate
    rw [hresult.result_eq_of_malformed hline hopens (by rw [hwritten]; decide +kernel)] at hreport
    exact hreport.trans (by decide +kernel)
  · obtain ⟨hwritten, hcount⟩ :=
      Config.generate_of_not_malformed .autoConf "A=y\n" (by decide +kernel)
    have hopens : Config.Opens Config.singleTree "in" "auto.conf" ["auto.conf"]
        "A=y\n".toUTF8 :=
      ⟨Tree.locateOutput_eq_ok_iff.mp rfl, ["in"], rfl, rfl⟩
    obtain ⟨result, hreport, hresult⟩ :=
      (hends [.refuses noSpace] Config.singleTree).exists_endsOn hparser hgenerate
    rw [hresult.result_eq_of_refuses (hopens.not_failsFor hcount) hopens
      (by rw [hwritten]; decide +kernel)] at hreport
    exact hreport.trans (by decide +kernel)
  · have hmisuse : Tool.genconf.requestBy .standard none ["-i", "in"] =
        .error (.misuse (.missingOptions [ofileOption])) := by
      decide +kernel
    obtain ⟨-, ⟨e, hmisuses, hrun⟩ | ⟨given, format, ifile, ofile, hscan, hasks, -⟩⟩ :=
      generator_ends hparser (by decide) (hhelp .genconf) (hversion .genconf)
    · cases hmisuse.symm.trans hmisuses.requestBy_eq
      rw [hrun]
      exact Files.Stateful.run_pure _ _
    · cases hmisuse.symm.trans
        ((Tool.requestBy_eq_generate_iff hparser).mpr ⟨given, hscan, hasks⟩)

end BootConfig.Command
