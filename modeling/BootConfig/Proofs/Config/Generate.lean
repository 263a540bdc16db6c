import BootConfig.Proofs.Config.Format
import BootConfig.Proofs.Config.Playing
import BootConfig.Proofs.Config.Reading

/-!
# What a run writes

A run on a sink without limit writes the opening lines of its format, a row for each assignment that
its configuration makes before the first malformed line, and the closing lines if no line is
malformed. Bytes that are no text leave nothing.
-/

namespace BootConfig.Config

open BootConfig.Text (unlines)

private theorem fromUTF8?_toUTF8 (text : String) : String.fromUTF8? text.toUTF8 = some text := by
  rw [String.fromUTF8?, String.toUTF8_eq_toByteArray, dif_pos text.isValidUTF8]
  rfl

private theorem fromUTF8?_eq_none {input : ByteArray} (h : ∀ text : String, input ≠ text.toUTF8) :
    String.fromUTF8? input = none := by
  rw [String.fromUTF8?]
  split
  · next hvalid => exact (h (.fromUTF8 input hvalid) rfl).elim
  · rfl

namespace Reading

private theorem writtenBy_entrySteps (format : Format) (number : Nat) (entries : List Entry) :
    writtenBy (entrySteps format number entries) =
      unlines ((entries.filterMap Entry.assignment?).map format.row) := by
  induction entries generalizing number with
  | nil => rfl
  | cons entry rest ih =>
    rw [entrySteps, writtenBy_append, ih]
    cases entry with
    | skipped =>
      rw [List.filterMap_cons_none rfl]
      exact String.empty_append
    | assigned a =>
      rw [List.filterMap_cons_some (f := Entry.assignment?) rfl, List.map_cons, Text.unlines_cons,
        ← format.assignment_eq]
      congr 1
      rw [Entry.steps, writtenBy_cons, writtenBy_map_write, Format.assignment]
      exact String.empty_append

/-- The script for a reading writes the opening lines, a row for each assignment, and the closing
lines if no line is malformed. -/
theorem writtenBy_script (format : Format) (reading : Reading) :
    writtenBy (reading.script format).steps =
      unlines (format.opening ++ reading.assignments.map format.row ++
        if reading.fault.isNone then format.closing else []) := by
  rw [script, assignments, Text.unlines_append, Text.unlines_append,
    ← writtenBy_entrySteps format 1, ← format.prologue_eq, Format.prologue, ← writtenBy_map_write]
  cases reading.fault with
  | none =>
    rw [Option.isNone_none, if_pos rfl, ← format.epilogue_eq, Format.epilogue,
      ← writtenBy_map_write, writtenBy_append, writtenBy_append]
  | some fault =>
    rw [Option.isNone_some, if_neg Bool.false_ne_true, writtenBy_append]
    exact String.append_empty.symm

/-- The script for a reading ends well exactly if nothing is wrong, with the number of
assignments. -/
theorem result_script_eq_ok_iff (format : Format) (reading : Reading) (count : Nat) :
    (reading.script format).result = .ok count ↔
      reading.fault = none ∧ reading.assignments.length = count := by
  rw [script]
  cases reading.fault <;> simp

/-- The script for a reading ends with the fault of a line exactly if that is what is wrong, with
the number of the line behind those that were read. -/
theorem result_script_eq_error_iff (format : Format) (reading : Reading) (e : Error) :
    (reading.script format).result = .error e ↔
      ∃ fault, reading.fault = some fault ∧ .line (reading.entries.length + 1) fault = e := by
  rw [script]
  cases reading.fault with
  | none => simp
  | some fault =>
    rw [Except.error.injEq]
    constructor
    · exact fun h ↦ ⟨fault, rfl, h⟩
    · rintro ⟨_, hf, h⟩
      rwa [Option.some.inj hf]

end Reading

/-- The script for the bytes of a text is that for what the text says. -/
theorem scriptFor_toUTF8 (format : Format) (text : String) :
    scriptFor format text.toUTF8 = (Reading.ofText text).script format := by
  rw [scriptFor, fromUTF8?_toUTF8]

/-- The script for bytes that are no text writes nothing. -/
theorem scriptFor_of_not_text (format : Format) {input : ByteArray}
    (h : ∀ text : String, input ≠ text.toUTF8) :
    scriptFor format input = ⟨[], .error (.io .invalidText)⟩ := by
  rw [scriptFor, fromUTF8?_eq_none h]

/-- A run on the bytes of a text plays the script for what the text says. -/
theorem generate_toUTF8 (format : Format) (text : String) (room : Option Nat) :
    generate format text.toUTF8 room = ((Reading.ofText text).script format).run room := by
  rw [generate, scriptFor_toUTF8]

/-- A run on bytes that are no text writes nothing. -/
theorem generate_of_not_text (format : Format) {input : ByteArray}
    (h : ∀ text : String, input ≠ text.toUTF8) (room : Option Nat) :
    generate format input room = ⟨ByteArray.empty, [], .error (.io .invalidText)⟩ := by
  rw [generate, scriptFor_of_not_text format h]
  rfl

/-- Without a limit, a run writes all that its script does and ends as that says. -/
theorem Script.run_unlimited (script : Script) :
    script.run none =
      ⟨(writtenBy script.steps).toUTF8, script.steps.filterMap Step.note?, script.result⟩ := by
  rw [run, Sink.empty, Sink.play_unlimited, ByteArray.empty_append]

/-- Without a limit, a run on a text writes a row for each assignment of the reading between the
lines of its format, of which the closing ones are left out if something is wrong. -/
theorem output_generate_toUTF8 (format : Format) (text : String) :
    (generate format text.toUTF8 none).output =
      (unlines (format.opening ++ (Reading.ofText text).assignments.map format.row ++
        if (Reading.ofText text).fault.isNone then format.closing else [])).toUTF8 := by
  rw [generate_toUTF8, Script.run_unlimited, Reading.writtenBy_script]

/-- Without a limit, a run on a text ends as the script for its reading does. -/
theorem result_generate_toUTF8 (format : Format) (text : String) :
    (generate format text.toUTF8 none).result =
      ((Reading.ofText text).script format).result := by
  rw [generate_toUTF8, Script.run_unlimited]

/-- Without a limit, a run on a text none of whose lines is malformed writes all lines of its format
and counts the assignments. -/
theorem generate_of_not_malformed (format : Format) (text : String)
    (h : ∀ line ∈ Text.lines text, ¬Malformed line) :
    (generate format text.toUTF8 none).output =
        (unlines (format.opening ++ (assignmentsOf (Text.lines text)).map format.row ++
          format.closing)).toUTF8 ∧
      (generate format text.toUTF8 none).result =
        .ok (assignmentsOf (Text.lines text)).length := by
  have hreading := Reading.ofLines_of_not_malformed h
  have hassignments := Reading.assignments_map_ofLine (Text.lines text) none
  rw [generate_toUTF8, Script.run_unlimited, Reading.writtenBy_script, Reading.ofText, hreading,
    hassignments]
  refine ⟨rfl, ?_⟩
  rw [← hassignments]
  rfl

/-- Without a limit, a run on a text writes up to its first malformed line, and names that. -/
theorem generate_of_malformed (format : Format) {text : String} {k : Nat} {line : String}
    (hk : (Text.lines text)[k]? = some line) (hline : Malformed line)
    (hbefore : ∀ l ∈ (Text.lines text).take k, ¬Malformed l) :
    (generate format text.toUTF8 none).output =
        (unlines (format.opening ++
          (assignmentsOf ((Text.lines text).take k)).map format.row)).toUTF8 ∧
      (generate format text.toUTF8 none).result = .error (.line (k + 1) .multipleSeparators) := by
  have hreading := Reading.ofLines_of_malformed hk hline hbefore
  have hassignments :=
    Reading.assignments_map_ofLine ((Text.lines text).take k) (some .multipleSeparators)
  have hlt := (List.getElem?_eq_some_iff.mp hk).1
  rw [generate_toUTF8, Script.run_unlimited, Reading.writtenBy_script, Reading.ofText, hreading,
    hassignments, Option.isNone_some, if_neg Bool.false_ne_true, List.append_nil]
  refine ⟨rfl, ?_⟩
  simp only [Reading.script, List.length_map, List.length_take, Nat.min_eq_left (Nat.le_of_lt hlt)]

/-- A run on a text succeeds only if none of its lines is malformed. -/
theorem not_malformed_of_generate {format : Format} {text : String} {count : Nat}
    (h : (generate format text.toUTF8 none).result = .ok count) :
    ∀ line ∈ Text.lines text, ¬Malformed line := by
  rw [generate_toUTF8, Script.run_unlimited, Reading.ofText] at h
  rw [← Reading.fault_ofLines_eq_none_iff]
  cases hf : (Reading.ofLines (Text.lines text)).fault with
  | none => rfl
  | some fault =>
    simp only [Reading.script, hf] at h
    cases h

/-- What a run does on a sink without limit. On bytes that are no text it writes nothing and fails.
On a text without malformed lines it writes the lines of its format, with a row for each line that
makes an assignment, in order, and counts these. Otherwise it stops before the first malformed line
and names it. -/
theorem generate_reference (format : Format) (input : ByteArray) :
    ((∀ text : String, input ≠ text.toUTF8) →
      (generate format input none).output = ByteArray.empty ∧
      (generate format input none).result = .error (.io .invalidText)) ∧
    ∀ text : String, input = text.toUTF8 →
      ((∀ line ∈ Text.lines text, ¬Malformed line) →
        (generate format input none).output =
          (unlines (format.opening ++ (assignmentsOf (Text.lines text)).map format.row ++
            format.closing)).toUTF8 ∧
        (generate format input none).result =
          .ok ((Text.lines text).countP fun line ↦ decide (Assigns line))) ∧
      ∀ k line, (Text.lines text)[k]? = some line → Malformed line →
        (∀ l ∈ (Text.lines text).take k, ¬Malformed l) →
        (generate format input none).output =
          (unlines (format.opening ++
            (assignmentsOf ((Text.lines text).take k)).map format.row)).toUTF8 ∧
        (generate format input none).result = .error (.line (k + 1) .multipleSeparators) := by
  constructor
  · intro h
    rw [generate_of_not_text format h]
    exact ⟨rfl, rfl⟩
  · rintro text rfl
    constructor
    · intro h
      rw [← length_assignmentsOf]
      exact generate_of_not_malformed format text h
    · intro k line hk hline hbefore
      exact generate_of_malformed format hk hline hbefore

/-- A byte that starts no character leaves nothing, a small configuration is written out as a
header, and one with a malformed second line is written up to that line. -/
theorem generate_reference_sample :
    (generate (.header "G") ⟨#[0xff]⟩ none).output = ByteArray.empty ∧
      (generate (.header "G") "FOO=y\r# comment\nBAR=n \r\nBAZ=\nQUX=m".toUTF8 none).output =
        ("#ifndef G\n#define G\n\n#define CONFIG_FOO\n/* CONFIG_BAR is not defined */\n" ++
          "#define CONFIG_BAZ \n#define CONFIG_QUX m\n\n#endif /* G */\n").toUTF8 ∧
      (generate (.header "G") "FOO=y\r# comment\nBAR=n \r\nBAZ=\nQUX=m".toUTF8 none).result =
        .ok 4 ∧
      (generate .autoConf "A=y\nB=1=2\nC=y".toUTF8 none).output =
        (banner ++ "CONFIG_A=y\n").toUTF8 ∧
      (generate .autoConf "A=y\nB=1=2\nC=y".toUTF8 none).result =
        .error (.line 2 .multipleSeparators) := by
  have hbytes : ∀ text : String, (⟨#[0xff]⟩ : ByteArray) ≠ text.toUTF8 := by
    intro text h
    have hvalid := text.isValidUTF8
    rw [← String.toUTF8_eq_toByteArray, ← h] at hvalid
    revert hvalid
    decide
  obtain ⟨hwritten, hcount⟩ := ((generate_reference (.header "G") _).2
    "FOO=y\r# comment\nBAR=n \r\nBAZ=\nQUX=m" rfl).1 (by decide +kernel)
  obtain ⟨hfront, hline⟩ := ((generate_reference .autoConf _).2 "A=y\nB=1=2\nC=y" rfl).2 1 "B=1=2"
    (by decide +kernel) (by decide +kernel) (by decide +kernel)
  refine ⟨((generate_reference (.header "G") _).1 hbytes).1, ?_, ?_, ?_, hline⟩
  · rw [hwritten]
    exact congrArg String.toUTF8 (by decide +kernel)
  · rw [hcount]
    decide +kernel
  · rw [hfront]
    exact congrArg String.toUTF8 (by decide +kernel)

end BootConfig.Config
