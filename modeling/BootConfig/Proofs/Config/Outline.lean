import BootConfig.Proofs.Config.Generate
import BootConfig.Proofs.Text.Complete

/-!
# The outline of an output

Whatever a configuration holds, what is written for it consists of the lines of its format: the
opening, one row for each assignment, and the closing. No name and no value brings a terminator of
its own, so nothing in a configuration stands on a line that it did not get, and the lines of the
include guard stay the only ones of their kind.
-/

namespace BootConfig.Config

open BootConfig.Text (IsLine ConsistsOf startsWith startsWith_append startsWith_eq_false)

namespace Format

/-- The include guard of a header stands on one line. -/
def GuardIsLine : Format → Prop
  | .autoConf => True
  | .header guard => IsLine guard.toList

/-- A line starts as the rows of a format do. -/
def IsRow : Format → String → Prop
  | .autoConf, line => startsWith "CONFIG_" line = true
  | .header _, line =>
    startsWith "#define CONFIG_" line = true ∨ startsWith "/* CONFIG_" line = true

private theorem isRow_row (format : Format) (a : Assignment) : format.IsRow (format.row a) := by
  cases format with
  | autoConf =>
    rw [IsRow, row, String.append_assoc, String.append_assoc]
    exact startsWith_append _ _
  | header guard =>
    rw [IsRow, row]
    split
    · exact .inl (startsWith_append _ _)
    split
    · rw [String.append_assoc]
      exact .inr (startsWith_append _ _)
    · rw [String.append_assoc, String.append_assoc]
      exact .inl (startsWith_append _ _)

variable {format : Format}

private theorem isLine_of_mem_opening (h : format.GuardIsLine) :
    ∀ line ∈ format.opening, IsLine line.toList := by
  cases format with
  | autoConf => decide +kernel
  | header guard =>
    simp only [opening, List.forall_mem_cons, String.toList_append]
    exact ⟨IsLine.append (by decide) h, IsLine.append (by decide) h, IsLine.nil,
      List.forall_mem_nil _⟩

private theorem isLine_of_mem_closing (h : format.GuardIsLine) :
    ∀ line ∈ format.closing, IsLine line.toList := by
  cases format with
  | autoConf => exact List.forall_mem_nil _
  | header guard =>
    simp only [closing, List.forall_mem_cons, String.toList_append]
    exact ⟨IsLine.nil, (IsLine.append (by decide) h).append (by decide), List.forall_mem_nil _⟩

private theorem length_opening_add_length_closing (format : Format) :
    format.opening.length + format.closing.length = 5 := by
  cases format <;> rfl

private theorem opening_ne_nil (format : Format) : format.opening ≠ [] := by
  cases format <;> exact List.cons_ne_nil _ _

/-! ### The lines of the guard -/

variable {guard : String} {rows : List String}

private theorem countP_rows {word : String} (hrows : ∀ row ∈ rows, (Format.header guard).IsRow row)
    (hdefine : startsWith word "#define CONFIG_" = false ∧
      startsWith "#define CONFIG_" word = false)
    (hremark : startsWith word "/* CONFIG_" = false ∧ startsWith "/* CONFIG_" word = false) :
    rows.countP (startsWith word) = 0 := by
  rw [List.countP_eq_zero]
  intro row hrow
  rw [Bool.not_eq_true]
  rcases hrows row hrow with h | h
  · exact startsWith_eq_false h hdefine.1 hdefine.2
  · exact startsWith_eq_false h hremark.1 hremark.2

private theorem countP_opening_rows (hrows : ∀ row ∈ rows, (Format.header guard).IsRow row) :
    ((Format.header guard).opening ++ rows).countP (startsWith "#ifndef") = 1 ∧
      ((Format.header guard).opening ++ rows).countP (startsWith "#endif") = 0 := by
  rw [List.countP_append, List.countP_append, countP_rows hrows (by decide) (by decide),
    countP_rows hrows (by decide) (by decide)]
  constructor <;> simp [opening, startsWith]

private theorem countP_closing (guard : String) :
    (Format.header guard).closing.countP (startsWith "#ifndef") = 0 ∧
      (Format.header guard).closing.countP (startsWith "#endif") = 1 := by
  constructor <;> simp [closing, startsWith]

end Format

private theorem Format.isRow_of_mem_map_row (format : Format) (assignments : List Assignment) :
    ∀ row ∈ assignments.map format.row, format.IsRow row := by
  intro row hrow
  obtain ⟨a, -, rfl⟩ := List.mem_map.mp hrow
  exact format.isRow_row a

private theorem consistsOf_generate {format : Format} (hguard : format.GuardIsLine)
    (text : String) :
    ∃ output, (generate format text.toUTF8 none).output = output.toUTF8 ∧
      ConsistsOf output (format.opening ++ (Reading.ofText text).assignments.map format.row ++
        if (Reading.ofText text).fault.isNone then format.closing else []) := by
  refine ⟨_, output_generate_toUTF8 format text, ?_⟩
  apply Text.consistsOf_unlines
  · simp [format.opening_ne_nil]
  · intro line hline
    rw [List.mem_append, List.mem_append] at hline
    rcases hline with (hopening | hrow) | hclosing
    · exact Format.isLine_of_mem_opening hguard line hopening
    · obtain ⟨a, ha, rfl⟩ := List.mem_map.mp hrow
      exact (Reading.clean_of_mem_assignments ha).isLine_row format
    · split at hclosing
      · exact Format.isLine_of_mem_closing hguard line hclosing
      · exact (List.not_mem_nil hclosing).elim

private theorem exists_text_of_generate {input : ByteArray} {room : Option Nat}
    (h : (generate format input room).result ≠ .error (.io .invalidText)) :
    ∃ text : String, input = text.toUTF8 := by
  by_contra hnone
  apply h
  rw [generate_of_not_text format fun text htext ↦ hnone ⟨text, htext⟩]

/-- Nothing in a configuration adds a line to what is written for it. If the include guard stands on
one line, a successful run writes complete lines, five more than assignments: those of the opening,
a row for each assignment, and those of the closing. A run that meets a malformed line has written
the same without the closing. A header has one line that starts with `#ifndef`, and one with
`#endif` where it is closed. -/
theorem no_line_is_injected (format : Format) (hguard : format.GuardIsLine) (input : ByteArray) :
    (∀ count, (generate format input none).result = .ok count →
      ∃ output rows, (generate format input none).output = output.toUTF8 ∧
        ConsistsOf output (format.opening ++ rows ++ format.closing) ∧
        rows.length = count ∧ (Text.lines output).length = count + 5 ∧
        (∀ row ∈ rows, format.IsRow row) ∧
        ∀ guard, format = .header guard →
          (Text.lines output).countP (startsWith "#ifndef") = 1 ∧
            (Text.lines output).countP (startsWith "#endif") = 1) ∧
    ∀ number fault, (generate format input none).result = .error (.line number fault) →
      ∃ output rows, (generate format input none).output = output.toUTF8 ∧
        ConsistsOf output (format.opening ++ rows) ∧ (∀ row ∈ rows, format.IsRow row) ∧
        ∀ guard, format = .header guard →
          (Text.lines output).countP (startsWith "#ifndef") = 1 ∧
            (Text.lines output).countP (startsWith "#endif") = 0 := by
  constructor
  · intro count hok
    obtain ⟨text, rfl⟩ := exists_text_of_generate (by rw [hok]; exact nofun)
    rw [result_generate_toUTF8, Reading.result_script_eq_ok_iff] at hok
    obtain ⟨hfault, hcount⟩ := hok
    obtain ⟨output, houtput, hlines⟩ := consistsOf_generate hguard text
    rw [hfault, Option.isNone_none, if_pos rfl] at hlines
    have hrows := format.isRow_of_mem_map_row (Reading.ofText text).assignments
    have hfive := format.length_opening_add_length_closing
    refine ⟨output, _, houtput, hlines, ?_, ?_, hrows, ?_⟩
    · rw [List.length_map, hcount]
    · rw [hlines.lines_eq, List.length_append, List.length_append, List.length_map, hcount]
      omega
    · rintro guard rfl
      have hopening := Format.countP_opening_rows hrows
      have hclosing := Format.countP_closing guard
      rw [hlines.lines_eq]
      constructor
      · rw [List.countP_append, hopening.1, hclosing.1]
      · rw [List.countP_append, hopening.2, hclosing.2]
  · intro number fault herror
    obtain ⟨text, rfl⟩ := exists_text_of_generate (by rw [herror]; exact nofun)
    rw [result_generate_toUTF8, Reading.result_script_eq_error_iff] at herror
    obtain ⟨fault, hfault, -⟩ := herror
    obtain ⟨output, houtput, hlines⟩ := consistsOf_generate hguard text
    rw [hfault, Option.isNone_some, if_neg Bool.false_ne_true, List.append_nil] at hlines
    have hrows := format.isRow_of_mem_map_row (Reading.ofText text).assignments
    refine ⟨output, _, houtput, hlines, hrows, ?_⟩
    rintro guard rfl
    rw [hlines.lines_eq]
    exact Format.countP_opening_rows hrows

/-- In a header, values and names that look like lines of the guard bring none, and an information
separator in the middle of a value is no terminator. -/
theorem no_line_is_injected_sample :
    (Format.header "G").GuardIsLine ∧
      (generate (.header "G") "A=#endif\r*/ #ifndef G=n\r\nB=\x1c #endif /* G */\n".toUTF8
        none).result = .ok 3 ∧
      (∃ output : String, (generate (.header "G")
          "A=#endif\r*/ #ifndef G=n\r\nB=\x1c #endif /* G */\n".toUTF8 none).output =
            output.toUTF8 ∧
        output.toList.count '\n' = 8 ∧ (Text.lines output).countP (startsWith "#endif") = 1) ∧
      ∃ output : String, (generate (.header "G") "A=#endif\nB==\n".toUTF8 none).output =
          output.toUTF8 ∧ (Text.lines output).countP (startsWith "#endif") = 0 := by
  have hguard : (Format.header "G").GuardIsLine := by
    rw [Format.GuardIsLine]
    decide
  have hsecond : (Text.lines "A=#endif\nB==\n")[1]? = some "B==" := by decide +kernel
  have hok : (generate (.header "G")
      "A=#endif\r*/ #ifndef G=n\r\nB=\x1c #endif /* G */\n".toUTF8 none).result = .ok 3 := by
    rw [(generate_of_not_malformed (.header "G") _ (by decide +kernel)).2]
    decide +kernel
  have hline : (generate (.header "G") "A=#endif\nB==\n".toUTF8 none).result =
      .error (.line 2 .multipleSeparators) :=
    (generate_of_malformed (.header "G") hsecond (by decide +kernel) (by decide +kernel)).2
  obtain ⟨output, rows, houtput, hlines, -, hlength, -, hguards⟩ :=
    (no_line_is_injected (.header "G") hguard _).1 3 hok
  obtain ⟨front, rows', hfront, -, -, hcutGuards⟩ :=
    (no_line_is_injected (.header "G") hguard _).2 2 _ hline
  refine ⟨hguard, hok, ⟨output, houtput, ?_, (hguards "G" rfl).2⟩, front, hfront,
    (hcutGuards "G" rfl).2⟩
  rw [hlines.count_newline, ← hlines.lines_eq, hlength]

end BootConfig.Config
