import BootConfig.Proofs.Command.Request
import BootConfig.Proofs.Text.Cut

/-!
# How options are given

An option is given by its long name or by its letter, with its value attached or as the next
argument. However it is given, the scan accepts the value or has it waiting, to be accepted next. So
a command line that gives different options, each with a value that passes its check, gives these
options the checked values, in whichever order.
-/

namespace BootConfig.Command

open BootConfig.Text (before_append_cons before_of_notMem behind_append_cons)

/-- An option that is found among others by its name and by its letter, neither of which asks for
help or for the version. -/
structure Known (options : List Opt) (option : Opt) : Prop where
  find_name : options.find? (·.name == option.name) = some option
  name_ne : option.name ≠ "" ∧ option.name ≠ "help" ∧ option.name ≠ "version"
  equals_notMem : '=' ∉ option.name.toList
  find_letter : ∀ c, option.letter = some c →
    options.find? (·.letter == some c) = some option ∧ c ≠ '-' ∧ c ≠ 'h' ∧ c ≠ 'V'

/-- A tool knows each of its options by its name and by its letter. -/
theorem Tool.known_of_mem (tool : Tool) {option : Opt} (h : option ∈ tool.options) :
    Known tool.options option := by
  cases tool <;>
    simp only [Tool.options, List.mem_cons, List.not_mem_nil, or_false] at h
  · rcases h with rfl | rfl <;>
      exact ⟨by decide, by decide, by decide, by rintro c ⟨⟩; decide⟩
  · rcases h with rfl | rfl | rfl <;>
      exact ⟨by decide, by decide, by decide, by rintro c ⟨⟩ <;> decide⟩
  · rcases h with rfl | rfl | rfl <;>
      exact ⟨by decide, by decide, by decide, by rintro c ⟨⟩; decide⟩

namespace Known

variable {options : List Opt} {option : Opt}

private theorem long_ne (h : Known options option) : "--" ++ option.name ≠ "--" := by
  simpa using h.name_ne.1

private theorem short_ne (h : Known options option) {c : Char} (hletter : option.letter = some c)
    (rest : List Char) : String.ofList ('-' :: c :: rest) ≠ "--" := by
  intro htext
  have hlist := congrArg String.toList htext
  rw [String.toList_ofList] at hlist
  exact (h.find_letter c hletter).2.1 (List.cons.inj (List.cons.inj hlist).2).1

end Known

/-- The arguments that give an option a value. As an argument of its own, the value may not look
like an option. -/
inductive Gives (option : Opt) (value : String) : List String → Prop where
  | long (hvalue : ∀ c cs, value.toList ≠ '-' :: c :: cs) :
      Gives option value ["--" ++ option.name, value]
  | longAttached : Gives option value ["--" ++ option.name ++ "=" ++ value]
  | short {c : Char} (hletter : option.letter = some c)
      (hvalue : ∀ c cs, value.toList ≠ '-' :: c :: cs) :
      Gives option value [String.ofList ['-', c], value]
  | shortAttached {c d : Char} {cs : List Char} (hletter : option.letter = some c)
      (hvalue : value.toList = d :: cs) (hd : d ≠ '=') :
      Gives option value [String.ofList ('-' :: c :: value.toList)]
  | shortEquals {c : Char} (hletter : option.letter = some c) :
      Gives option value [String.ofList ('-' :: c :: '=' :: value.toList)]

/-- The arguments that give several options their values, one after the other. -/
inductive GivesAll : List (Opt × String) → List String → Prop where
  | nil : GivesAll [] []
  | cons {option : Opt} {value : String} {entries : List (Opt × String)} {args more : List String}
      (h : Gives option value args) (hmore : GivesAll entries more) :
      GivesAll ((option, value) :: entries) (args ++ more)

/-! ### Arguments one after the other -/

namespace Scan

variable {options : List Opt} {option : Opt} {scan settled next : Scan} {value : String}

private theorem waiting_of_settle (h : scan.settle = .ok settled) : settled.waiting = none := by
  unfold settle at h
  split at h
  · next hnone =>
    cases h
    exact hnone
  · cases h
  · obtain ⟨-, _, -, rfl⟩ := accept_eq_ok_iff.mp h
    rfl

private theorem settle_of_waiting (h : scan.waiting = none) : scan.settle = .ok scan := by
  rw [settle, h]

private theorem take_none (hsettle : scan.settle = .ok settled) :
    scan.take option none = .ok { settled with waiting := some ⟨option, none⟩ } := by
  rw [take, hsettle]

private theorem take_some (hsettle : scan.settle = .ok settled)
    (haccept : settled.accept option value = .ok next) :
    scan.take option (some value) = .ok next := by
  rw [take, hsettle]
  simp only [haccept, Except.mapError]

private theorem argument_long (scan : Scan) (hknown : Known options option) :
    scan.argument options ("--" ++ option.name) = scan.take option none := by
  obtain ⟨-, hhelp, hversion⟩ := hknown.name_ne
  have hname : option.name.toList.takeWhile (· != '=') = option.name.toList :=
    before_of_notMem hknown.equals_notMem
  rw [argument, String.toList_append]
  change longArgument options scan option.name.toList = _
  simp only [longArgument, hname, String.ofList_toList, if_neg hhelp, if_neg hversion,
    hknown.find_name]
  rw [if_neg (by simpa using hknown.equals_notMem)]

private theorem argument_longAttached (hknown : Known options option) :
    scan.argument options ("--" ++ option.name ++ "=" ++ value) =
      scan.take option (some value) := by
  obtain ⟨-, hhelp, hversion⟩ := hknown.name_ne
  have htext : ("--" ++ option.name ++ "=" ++ value).toList =
      '-' :: '-' :: (option.name.toList ++ '=' :: value.toList) := by
    simp only [String.toList_append, List.append_assoc]
    rfl
  have hname : (option.name.toList ++ '=' :: value.toList).takeWhile (· != '=') =
      option.name.toList :=
    before_append_cons hknown.equals_notMem _
  have hvalue : ((option.name.toList ++ '=' :: value.toList).dropWhile (· != '=')).drop 1 =
      value.toList :=
    behind_append_cons hknown.equals_notMem _
  rw [argument, htext]
  simp only [longArgument, hname, hvalue, String.ofList_toList, if_neg hhelp, if_neg hversion,
    hknown.find_name]
  rw [if_pos (by simp)]

/-- The value that is attached to the letter of an option, without an equals sign in front. -/
def attachedTo : List Char → Option String
  | [] => none
  | '=' :: value => some (String.ofList value)
  | value => some (String.ofList value)

private theorem attachedTo_toList {c : Char} {cs : List Char} (hvalue : value.toList = c :: cs)
    (hc : c ≠ '=') : attachedTo value.toList = some value := by
  rw [hvalue]
  unfold attachedTo
  split
  · next h => cases h
  · next h =>
    cases h
    exact (hc rfl).elim
  · rw [← hvalue, String.ofList_toList]

private theorem argument_short (scan : Scan) (hknown : Known options option) {c : Char}
    (hletter : option.letter = some c) (rest : List Char) :
    scan.argument options (String.ofList ('-' :: c :: rest)) =
      scan.take option (attachedTo rest) := by
  obtain ⟨hfind, hdash, hhelp, hversion⟩ := hknown.find_letter c hletter
  rw [argument, String.toList_ofList]
  split
  · next h =>
    cases h
    exact (hdash rfl).elim
  · next h =>
    cases h
    simp only [shortArgument, if_neg hhelp, if_neg hversion, hfind]
    rfl
  · next h => exact (h _ _ rfl).elim

private theorem argument_plain (hvalue : ∀ c cs, value.toList ≠ '-' :: c :: cs)
    (hwaiting : scan.waiting = some ⟨option, none⟩) :
    scan.argument options value = .ok { scan with waiting := some ⟨option, some value⟩ } := by
  rw [argument]
  split
  · next h => exact (hvalue _ _ h).elim
  · next h => exact (hvalue _ _ h).elim
  · rw [plainArgument, hwaiting]

private theorem arguments_cons {argument : String} (hdashes : argument ≠ "--")
    (h : scan.argument options argument = .ok next) (rest : List String) :
    scan.arguments options (argument :: rest) = next.arguments options rest := by
  rw [arguments.eq_def]
  simp only [if_neg hdashes, h]

private theorem arguments_alone {name : String}
    (hname : scan.argument options name = scan.take option none)
    (hdashes : name ≠ "--") (hvalue : ∀ c cs, value.toList ≠ '-' :: c :: cs)
    (hsettle : scan.settle = .ok settled) (rest : List String) :
    scan.arguments options (name :: value :: rest) =
      Scan.arguments options { settled with waiting := some ⟨option, some value⟩ } rest := by
  have hne : value ≠ "--" := by
    rintro rfl
    exact hvalue _ _ rfl
  rw [arguments_cons hdashes (hname.trans (take_none hsettle)),
    arguments_cons hne (argument_plain hvalue rfl)]

private theorem arguments_of_gives {args : List String} (hknown : Known options option)
    (h : Gives option value args) (hsettle : scan.settle = .ok settled)
    (haccept : settled.accept option value = .ok next) (rest : List String) :
    ∃ after : Scan, scan.arguments options (args ++ rest) = after.arguments options rest ∧
      after.settle = .ok next := by
  have hsettled := waiting_of_settle hsettle
  have hattached := take_some hsettle haccept
  have hnext : next.settle = .ok next := by
    obtain ⟨-, _, -, rfl⟩ := accept_eq_ok_iff.mp haccept
    exact settle_of_waiting hsettled
  -- What waits is accepted when the scan goes on, from where it has settled now.
  have hwaits : Scan.settle { settled with waiting := some ⟨option, some value⟩ } = .ok next := by
    cases settled
    cases hsettled
    exact haccept
  cases h with
  | long hvalue =>
    have hargument := argument_long scan hknown
    exact ⟨_, arguments_alone hargument hknown.long_ne hvalue hsettle rest, hwaits⟩
  | longAttached =>
    have hargument := (argument_longAttached hknown).trans hattached
    have hne : "--" ++ option.name ++ "=" ++ value ≠ "--" := by simp [String.append_assoc]
    exact ⟨next, arguments_cons hne hargument rest, hnext⟩
  | short hletter hvalue =>
    have hargument := argument_short scan hknown hletter []
    have hne := hknown.short_ne hletter []
    exact ⟨_, arguments_alone hargument hne hvalue hsettle rest, hwaits⟩
  | @shortAttached c d cs hletter hvalue hd =>
    have hargument := argument_short scan hknown hletter value.toList
    rw [attachedTo_toList hvalue hd, hattached] at hargument
    exact ⟨next, arguments_cons (hknown.short_ne hletter _) hargument rest, hnext⟩
  | @shortEquals c hletter =>
    have hargument := argument_short scan hknown hletter ('=' :: value.toList)
    rw [attachedTo, String.ofList_toList, hattached] at hargument
    exact ⟨next, arguments_cons (hknown.short_ne hletter _) hargument rest, hnext⟩

private theorem lookup_of_accept (h : settled.accept option value = .ok next) (other : Opt)
    (argument : Argument) :
    next.given.lookup other = some argument ↔
      settled.given.lookup other = some argument ∨
        other = option ∧ option.check value = .ok argument := by
  obtain ⟨hnew, checked, hcheck, rfl⟩ := accept_eq_ok_iff.mp h
  rw [List.lookup_cons, hcheck, Except.ok.injEq]
  by_cases hother : other = option
  · subst hother
    simp [hnew]
  · simp [hother, beq_eq_false_iff_ne.mpr hother]

private theorem arguments_of_givesAll {entries : List (Opt × String)} {args : List String}
    (h : GivesAll entries args) (hknown : ∀ entry ∈ entries, Known options entry.1)
    (hdistinct : (entries.map Prod.fst).Nodup)
    (hcheck : ∀ entry ∈ entries, ∃ argument, entry.1.check entry.2 = .ok argument)
    (hsettle : scan.settle = .ok settled)
    (hnew : ∀ entry ∈ entries, settled.given.lookup entry.1 = none) :
    ∃ after final : Scan, scan.arguments options args = .ok after ∧ after.settle = .ok final ∧
      ∀ option argument, final.given.lookup option = some argument ↔
        settled.given.lookup option = some argument ∨
          ∃ value, (option, value) ∈ entries ∧ option.check value = .ok argument := by
  induction h generalizing scan settled with
  | nil => exact ⟨scan, settled, rfl, hsettle, by simp⟩
  | @cons option value entries args more hgives hmore ih =>
    rw [List.forall_mem_cons] at hknown hcheck hnew
    rw [List.map_cons, List.nodup_cons] at hdistinct
    obtain ⟨argument, hargument⟩ := hcheck.1
    have haccept : settled.accept option value =
        .ok { settled with given := (option, argument) :: settled.given } :=
      accept_eq_ok_iff.mpr ⟨hnew.1, argument, hargument, rfl⟩
    obtain ⟨between, hbetween, hsettled⟩ :=
      arguments_of_gives hknown.1 hgives hsettle haccept more
    have hlookup := lookup_of_accept haccept
    have hstill : ∀ entry ∈ entries, List.lookup entry.1
        ((option, argument) :: settled.given) = none := by
      intro entry hentry
      have hne : entry.1 ≠ option := by
        rintro rfl
        exact hdistinct.1 (List.mem_map.mpr ⟨entry, hentry, rfl⟩)
      rw [List.lookup_cons, beq_eq_false_iff_ne.mpr hne]
      exact hnew.2 entry hentry
    obtain ⟨after, final, hafter, hfinal, hgiven⟩ :=
      ih hknown.2 hdistinct.2 hcheck.2 hsettled hstill
    refine ⟨after, final, hbetween.trans hafter, hfinal, ?_⟩
    intro other found
    rw [hgiven, hlookup]
    constructor
    · rintro ((hold | ⟨rfl, hfound⟩) | ⟨text, hmem, hfound⟩)
      · exact .inl hold
      · exact .inr ⟨value, List.mem_cons_self, hfound⟩
      · exact .inr ⟨text, List.mem_cons_of_mem _ hmem, hfound⟩
    · rintro (hold | ⟨text, hmem, hfound⟩)
      · exact .inl (.inl hold)
      · rcases List.mem_cons.mp hmem with heq | hmem
        · cases heq
          exact .inl (.inr ⟨rfl, hfound⟩)
        · exact .inr ⟨text, hmem, hfound⟩

end Scan

/-- A command line that gives different options, each with a value that passes its check, gives
these options the checked values and no others. -/
theorem scanArguments_of_givesAll {options : List Opt} {entries : List (Opt × String)}
    {args : List String} (h : GivesAll entries args)
    (hknown : ∀ entry ∈ entries, Known options entry.1)
    (hdistinct : (entries.map Prod.fst).Nodup)
    (hcheck : ∀ entry ∈ entries, ∃ argument, entry.1.check entry.2 = .ok argument) :
    ∃ given, scanArguments options args = .ok given ∧
      ∀ option argument, given.lookup option = some argument ↔
        ∃ value, (option, value) ∈ entries ∧ option.check value = .ok argument := by
  have hstart : Scan.start.settle = .ok .start := rfl
  obtain ⟨after, final, hafter, hfinal, hgiven⟩ :=
    Scan.arguments_of_givesAll h hknown hdistinct hcheck hstart fun _ _ ↦ rfl
  refine ⟨final.given, ?_, ?_⟩
  · rw [scanArguments, hafter]
    simp only [hfinal]
  · intro option argument
    rw [hgiven]
    refine or_iff_right ?_
    intro hgivenBefore
    cases hgivenBefore

end BootConfig.Command
