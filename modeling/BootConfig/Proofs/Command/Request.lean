import BootConfig.Command.Tool

/-!
# What a generator is asked to do

Every value that a command line gives was checked by its option, so an option for a path or a text
has a text if it is given at all. What a generator is asked for can then be read off the options
that are given and, for the include guard, the environment.
-/

namespace BootConfig.Command

/-! ### Checked values -/

/-- Each option has a value that it has checked. -/
def Checked (given : List (Opt × Argument)) : Prop :=
  ∀ entry ∈ given, ∃ value, entry.1.check value = .ok entry.2

namespace Scan

variable {options : List Opt} {scan next : Scan} {option : Opt}

/-- An accepted value is given with its option, and nothing else changes. -/
theorem accept_eq_ok_iff {value : String} :
    scan.accept option value = .ok next ↔
      scan.given.lookup option = none ∧ ∃ argument, option.check value = .ok argument ∧
        next = { scan with given := (option, argument) :: scan.given } := by
  unfold accept
  cases scan.given.lookup option with
  | some argument => simp
  | none => cases option.check value <;> simp [Except.map, eq_comm]

private theorem checked_accept {value : String} (h : Checked scan.given)
    (haccept : scan.accept option value = .ok next) : Checked next.given := by
  obtain ⟨-, argument, hcheck, rfl⟩ := accept_eq_ok_iff.mp haccept
  exact List.forall_mem_cons.mpr ⟨⟨value, hcheck⟩, h⟩

private theorem checked_settle (h : Checked scan.given) (hsettle : scan.settle = .ok next) :
    Checked next.given := by
  rw [settle] at hsettle
  split at hsettle
  · cases hsettle
    exact h
  · cases hsettle
  · have hgiven : Checked { scan with waiting := none }.given := h
    exact checked_accept hgiven hsettle

private theorem checked_take {attached : Option String} (h : Checked scan.given)
    (htake : scan.take option attached = .ok next) : Checked next.given := by
  rw [take] at htake
  split at htake
  · cases htake
  · next settled hsettle =>
    have hsettled := checked_settle h hsettle
    split at htake
    · cases htake
      exact hsettled
    · next value =>
      cases haccept : settled.accept option value with
      | error e =>
        rw [haccept] at htake
        cases htake
      | ok accepted =>
        rw [haccept] at htake
        cases htake
        exact checked_accept hsettled haccept

private theorem checked_argument {argument : String} (h : Checked scan.given)
    (hargument : scan.argument options argument = .ok next) : Checked next.given := by
  rw [Scan.argument] at hargument
  split at hargument
  · unfold longArgument at hargument
    dsimp only at hargument
    split at hargument
    · cases hargument
    · cases hargument
    · cases hargument
    · exact checked_take h hargument
  · unfold shortArgument at hargument
    dsimp only at hargument
    split at hargument
    · cases hargument
    · cases hargument
    · exact checked_take h hargument
  · rw [plainArgument] at hargument
    split at hargument
    · cases hargument
      exact h
    · cases hargument

private theorem checked_arguments {args : List String} (h : Checked scan.given)
    (harguments : scan.arguments options args = .ok next) : Checked next.given := by
  induction args generalizing scan with
  | nil =>
    cases harguments
    exact h
  | cons first rest ih =>
    unfold arguments at harguments
    split at harguments
    · split at harguments
      · cases harguments
        exact h
      · cases harguments
    · split at harguments
      · cases harguments
      · next hfirst => exact ih (checked_argument h hfirst) harguments

end Scan

/-- The values that a command line gives are checked. -/
theorem checked_scanArguments {options : List Opt} {args : List String}
    {given : List (Opt × Argument)} (h : scanArguments options args = .ok given) :
    Checked given := by
  rw [scanArguments] at h
  split at h
  · cases h
  · next hscan =>
    have hstart : Checked Scan.start.given := List.forall_mem_nil _
    have harguments := Scan.checked_arguments hstart hscan
    split at h
    · cases h
    · next hsettle =>
      cases h
      exact Scan.checked_settle harguments hsettle

/-- A parser gives options only values that they have checked. -/
def Parser.ChecksValues (parser : Parser) : Prop :=
  ∀ options args given, parser.scan options args = .ok given → Checked given

/-- The parser that the tools use checks values. -/
theorem Parser.checksValues_standard : Parser.standard.ChecksValues :=
  fun _ _ _ ↦ checked_scanArguments

/-! ### Texts -/

section Texts

variable {given : List (Opt × Argument)} {option : Opt} {value fallback : String}

/-- A value that is given was checked by its option. -/
theorem Checked.check_of_lookup {argument : Argument} (h : Checked given)
    (hlookup : given.lookup option = some argument) :
    ∃ value, option.check value = .ok argument := by
  obtain ⟨front, back, rfl, -⟩ := List.lookup_eq_some_iff.mp hlookup
  exact h (option, argument) (by simp)

private theorem Opt.check_eq_text {argument : Argument} (hkind : option.kind ≠ .number)
    (h : option.check value = .ok argument) : argument = .text value := by
  unfold check at h
  split at h
  · split at h
    · cases h
    · cases h
      rfl
  · cases h
    rfl
  · next hnumber => exact (hkind hnumber).elim

/-- A text is that of an option exactly if it is given for it. -/
theorem textOf?_eq_some_iff :
    textOf? given option = some value ↔ given.lookup option = some (.text value) := by
  unfold textOf?
  split
  · next h => rw [h, Option.some.injEq, Option.some.injEq, Argument.text.injEq]
  · next h =>
    constructor
    · intro hnone
      cases hnone
    · intro hsome
      exact (h value hsome).elim

private theorem Checked.textOf?_eq_none_iff (h : Checked given) (hkind : option.kind ≠ .number) :
    textOf? given option = none ↔ given.lookup option = none := by
  unfold textOf?
  split
  · next hsome => simp [hsome]
  · next hother =>
    cases hlookup : given.lookup option with
    | none => simp
    | some argument =>
      obtain ⟨value, hcheck⟩ := h.check_of_lookup hlookup
      have htext : argument = .text value := Opt.check_eq_text hkind hcheck
      exact (hother value (htext ▸ hlookup)).elim

/-- The text of an option is the one that is given for it, or else another one takes its place. -/
inductive GivenOr (given : List (Opt × Argument)) (option : Opt) (fallback : String) :
    String → Prop where
  | given {value : String} (h : given.lookup option = some (.text value)) :
      GivenOr given option fallback value
  | fallback (h : given.lookup option = none) : GivenOr given option fallback fallback

private theorem Checked.getD_textOf?_eq_iff (h : Checked given) (hkind : option.kind ≠ .number) :
    (textOf? given option).getD fallback = value ↔ GivenOr given option fallback value := by
  constructor
  · rintro rfl
    cases htext : textOf? given option with
    | none => exact .fallback ((h.textOf?_eq_none_iff hkind).mp htext)
    | some text => exact .given (textOf?_eq_some_iff.mp htext)
  · rintro (hgiven | hnone)
    · rw [textOf?_eq_some_iff.mpr hgiven]
      rfl
    · rw [(h.textOf?_eq_none_iff hkind).mpr hnone]
      rfl

end Texts

/-! ### Requests -/

/-- What the options that are given ask of a generator: the format, the configuration and the file
that is generated. The name of the cache has a default, and so has the include guard, for which the
environment may name another one. -/
inductive Asks (guard : Option String) (given : List (Opt × Argument)) :
    Tool → Config.Format → String → String → Prop where
  | cache {ifile ofile : String} (hifile : given.lookup ifileOption = some (.text ifile))
      (hofile : GivenOr given ofileOption defaultCache ofile) :
      Asks guard given .builtin .autoConf ifile ofile
  | header {ifile ofile guardName : String}
      (hifile : given.lookup ifileOption = some (.text ifile))
      (hofile : given.lookup ofileOption = some (.text ofile))
      (hguard : GivenOr given guardOption (guard.getD Config.defaultGuard) guardName) :
      Asks guard given .genconf (.header guardName) ifile ofile

/-- What a parser finds wrong with the command line of a tool. -/
inductive Misuses (parser : Parser) (tool : Tool) (args : List String) : UsageError → Prop where
  | scan {e : UsageError} (h : parser.scan tool.options args = .error (.misuse e)) :
      Misuses parser tool args e
  | missing {given : List (Opt × Argument)} (hscan : parser.scan tool.options args = .ok given)
      (hmissing : ∃ option ∈ tool.required, given.lookup option = none) :
      Misuses parser tool args
        (.missingOptions (tool.required.filter fun option ↦ (given.lookup option).isNone))

namespace Tool

variable {parser : Parser} {tool : Tool} {guard : Option String} {args : List String}
  {given : List (Opt × Argument)} {format : Config.Format} {ifile ofile : String}

/-- A command line asks for what the options ask that it gives. -/
theorem requestBy_eq_ok_iff {request : Request} :
    tool.requestBy parser guard args = .ok request ↔
      ∃ given, parser.scan tool.options args = .ok given ∧
        tool.request? guard given = some request := by
  unfold Tool.requestBy
  cases hscan : parser.scan tool.options args with
  | error stop => simp
  | ok given =>
    simp only [Except.ok.injEq, exists_eq_left']
    cases tool.request? guard given <;> simp

/-- Checked options ask for a file to be generated exactly if they ask this of a generator. -/
theorem request?_eq_generate_iff (h : Checked given) :
    tool.request? guard given = some (.generate format ifile ofile) ↔
      Asks guard given tool format ifile ofile := by
  have hofileKind : ofileOption.kind ≠ .number := by decide
  have hguardKind : guardOption.kind ≠ .number := by decide
  constructor
  · intro hrequest
    cases tool with
    | builtin =>
      obtain ⟨_, hifile, hrequest⟩ := Option.bind_eq_some_iff.mp hrequest
      cases hrequest
      exact .cache (textOf?_eq_some_iff.mp hifile) ((h.getD_textOf?_eq_iff hofileKind).mp rfl)
    | genconf =>
      obtain ⟨_, hifile, hrequest⟩ := Option.bind_eq_some_iff.mp hrequest
      obtain ⟨_, hofile, hrequest⟩ := Option.bind_eq_some_iff.mp hrequest
      cases hrequest
      exact .header (textOf?_eq_some_iff.mp hifile) (textOf?_eq_some_iff.mp hofile)
        ((h.getD_textOf?_eq_iff hguardKind).mp rfl)
    | elfconf =>
      obtain ⟨_, -, hrequest⟩ := Option.bind_eq_some_iff.mp hrequest
      obtain ⟨_, -, hrequest⟩ := Option.bind_eq_some_iff.mp hrequest
      obtain ⟨_, -, hrequest⟩ := Option.bind_eq_some_iff.mp hrequest
      cases hrequest
  · rintro (⟨hifile, hofile⟩ | ⟨hifile, hofile, hguard⟩)
    · rw [request?, textOf?_eq_some_iff.mpr hifile, (h.getD_textOf?_eq_iff hofileKind).mpr hofile]
      rfl
    · rw [request?, textOf?_eq_some_iff.mpr hifile, textOf?_eq_some_iff.mpr hofile,
        (h.getD_textOf?_eq_iff hguardKind).mpr hguard]
      rfl

/-- A command line asks for a file to be generated exactly if the options that it gives do. -/
theorem requestBy_eq_generate_iff (hparser : parser.ChecksValues) :
    tool.requestBy parser guard args = .ok (.generate format ifile ofile) ↔
      ∃ given, parser.scan tool.options args = .ok given ∧
        Asks guard given tool format ifile ofile := by
  rw [requestBy_eq_ok_iff]
  exact exists_congr fun given ↦ and_congr_right fun hscan ↦
    request?_eq_generate_iff (hparser _ _ _ hscan)

end Tool

variable {parser : Parser} {tool : Tool} {guard : Option String} {args : List String}
  {given : List (Opt × Argument)} {e : UsageError}

/-- A tool that is misused is asked for nothing. -/
theorem Misuses.requestBy_eq (h : Misuses parser tool args e) :
    tool.requestBy parser guard args = .error (.misuse e) := by
  cases h with
  | scan h => rw [Tool.requestBy, h]
  | @missing given hscan hmissing =>
    have hnone : tool.request? guard given = none := by
      obtain ⟨option, hmem, hlookup⟩ := hmissing
      cases tool <;>
        simp only [Tool.required, List.mem_cons, List.not_mem_nil, or_false] at hmem
      · subst hmem
        simp [Tool.request?, textOf?, hlookup]
      · rcases hmem with rfl | rfl <;> simp [Tool.request?, textOf?, hlookup]
      · rcases hmem with rfl | rfl | rfl <;>
          simp [Tool.request?, textOf?, numberOf?, hlookup]
    rw [Tool.requestBy, hscan]
    simp only [hnone]

private theorem Checked.asks_or_missing (guard : Option String) (htool : tool ≠ .elfconf)
    (h : Checked given) :
    (∃ format ifile ofile, Asks guard given tool format ifile ofile) ∨
      ∃ option ∈ tool.required, given.lookup option = none := by
  have hifileKind : ifileOption.kind ≠ .number := by decide
  have hofileKind : ofileOption.kind ≠ .number := by decide
  have hguardKind : guardOption.kind ≠ .number := by decide
  cases tool with
  | elfconf => exact (htool rfl).elim
  | builtin =>
    cases hifile : textOf? given ifileOption with
    | none => exact .inr ⟨_, by decide, (h.textOf?_eq_none_iff hifileKind).mp hifile⟩
    | some ifile =>
      exact .inl ⟨_, _, _, .cache (textOf?_eq_some_iff.mp hifile)
        ((h.getD_textOf?_eq_iff hofileKind).mp rfl)⟩
  | genconf =>
    cases hifile : textOf? given ifileOption with
    | none => exact .inr ⟨_, by decide, (h.textOf?_eq_none_iff hifileKind).mp hifile⟩
    | some ifile =>
      cases hofile : textOf? given ofileOption with
      | none => exact .inr ⟨_, by decide, (h.textOf?_eq_none_iff hofileKind).mp hofile⟩
      | some ofile =>
        exact .inl ⟨_, _, _, .header (textOf?_eq_some_iff.mp hifile)
          (textOf?_eq_some_iff.mp hofile) ((h.getD_textOf?_eq_iff hguardKind).mp rfl)⟩

/-- A generator that is not asked for help or for its version is misused or asked for a file. -/
theorem misuses_or_asks (guard : Option String) (hparser : parser.ChecksValues)
    (htool : tool ≠ .elfconf) (hhelp : parser.scan tool.options args ≠ .error .help)
    (hversion : parser.scan tool.options args ≠ .error .version) :
    (∃ e, Misuses parser tool args e) ∨
      ∃ given format ifile ofile, parser.scan tool.options args = .ok given ∧
        Asks guard given tool format ifile ofile := by
  cases hscan : parser.scan tool.options args with
  | error stop =>
    cases stop with
    | help => exact (hhelp hscan).elim
    | version => exact (hversion hscan).elim
    | misuse e => exact .inl ⟨e, .scan hscan⟩
  | ok given =>
    rcases (hparser _ _ _ hscan).asks_or_missing guard htool with
      ⟨format, ifile, ofile, hasks⟩ | hmissing
    · exact .inr ⟨given, format, ifile, ofile, rfl, hasks⟩
    · exact .inl ⟨_, .missing hscan hmissing⟩

end BootConfig.Command
