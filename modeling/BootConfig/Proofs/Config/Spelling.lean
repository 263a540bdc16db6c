import BootConfig.Proofs.Config.Generate
import BootConfig.Proofs.Text.Spelling

/-!
# Line endings and padding do not count

Two texts that spell the same lines say the same: blanks behind a line do not decide what it says,
and where two terminators merge into one, the line between them is empty and says nothing. Such a
merger moves the lines behind it up by one, so the number of a malformed line is the same only
without one.
-/

namespace BootConfig.Config

open BootConfig.Text

/-- Two readings make the same assignments and meet the same fault, and meet it on the same line if
that is asked for. -/
structure Reading.Alike (numbered : Prop) (reading other : Reading) : Prop where
  assignments : reading.assignments = other.assignments
  fault : reading.fault = other.fault
  length : numbered → reading.fault ≠ none → reading.entries.length = other.entries.length

namespace Reading

namespace Alike

variable {numbered : Prop} {reading other : Reading}

/-- A reading is like itself. -/
theorem refl (numbered : Prop) (reading : Reading) : Alike numbered reading reading :=
  ⟨rfl, rfl, fun _ _ ↦ rfl⟩

private theorem trans_symm {third : Reading} {also : Prop} (h : Alike numbered reading third)
    (ho : Alike also other third) : Alike (numbered ∧ also) reading other where
  assignments := h.assignments.trans ho.assignments.symm
  fault := h.fault.trans ho.fault.symm
  length := by
    rintro ⟨hn, ha⟩ hf
    have hthird : other.fault ≠ none := by rwa [ho.fault, ← h.fault]
    rw [h.length hn hf, ho.length ha hthird]

/-- The same entry may be put in front of readings that are alike. -/
theorem cons (entry : Entry) (h : Alike numbered reading other) :
    Alike numbered (Reading.cons entry reading) (Reading.cons entry other) where
  assignments := by
    have htail := h.assignments
    rw [Reading.assignments, Reading.assignments] at htail ⊢
    rw [Reading.cons, Reading.cons, List.filterMap_cons, List.filterMap_cons, htail]
  fault := h.fault
  length := fun hn hf ↦ congrArg (· + 1) (h.length hn hf)

private theorem of_cons_skipped (h : Alike numbered (Reading.cons .skipped reading) other) :
    Alike False reading other :=
  ⟨h.assignments, h.fault, False.elim⟩

/-- Less may be asked for. -/
theorem mono {less : Prop} (h : Alike numbered reading other) (hn : less → numbered) :
    Alike less reading other :=
  ⟨h.assignments, h.fault, fun hl ↦ h.length (hn hl)⟩

end Alike

private theorem alike_ofLines_cons {numbered : Prop} {line similar : String}
    {rest others : List String}
    (hline : parseLine line = parseLine similar)
    (h : Alike numbered (ofLines rest) (ofLines others)) :
    Alike numbered (ofLines (line :: rest)) (ofLines (similar :: others)) := by
  rw [ofLines, ofLines, hline]
  cases parseLine similar with
  | error fault => exact .refl _ _
  | ok entry? =>
    cases entry? with
    | none => exact h.cons .skipped
    | some a => exact h.cons (.assigned a)

private theorem ofText_of_splitLines {cs line : List Char} {rest : List Char}
    (h : splitLines cs = line :: splitLines rest) :
    ofText (String.ofList cs) =
      ofLines (String.ofList line :: Text.lines (String.ofList rest)) := by
  rw [ofText, Text.lines, Text.lines, String.toList_ofList, String.toList_ofList, h,
    List.map_cons]

private theorem alike_ofText_text {written : List String}
    (hwritten : ∀ line ∈ written, IsLine line.toList)
    (spelling : Spelling written) :
    Alike spelling.Apart (ofText spelling.text) (ofLines written) := by
  induction spelling with
  | nil => exact .refl _ _
  | last line padding hpadding =>
    have hline : IsLine (line.toList ++ padding) :=
      (hwritten line List.mem_cons_self).append hpadding.1
    rw [ofText, Text.lines, Spelling.text, Spelling.chars, String.toList_ofList,
      splitLines_of_isLine hline]
    split
    · next hempty =>
      have hnothing : line = "" :=
        String.toList_eq_nil_iff.mp (List.append_eq_nil_iff.mp hempty).1
      subst hnothing
      exact ⟨rfl, rfl, fun _ hf ↦ (hf rfl).elim⟩
    · exact alike_ofLines_cons (parseLine_append hpadding.2 line) (.refl _ _)
  | cons line padding hpadding terminator rest ih =>
    have hline : IsLine (line.toList ++ padding) :=
      (hwritten line List.mem_cons_self).append hpadding.1
    have hrest := ih fun l hl ↦ hwritten l (List.mem_cons_of_mem _ hl)
    by_cases hmerged : terminator = .carriageReturn ∧ rest.chars.head? = some '\n'
    · -- The carriage return and the line feed are one terminator, so the empty line is not there.
      obtain ⟨rfl, hfeed⟩ := hmerged
      obtain ⟨back, hback⟩ := List.head?_eq_some_iff.mp hfeed
      have hchars : (Spelling.cons line padding hpadding .carriageReturn rest).chars =
          line.toList ++ padding ++ (Terminator.both.chars ++ back) := by
        rw [Spelling.chars, hback]
        rfl
      have hsplit : splitLines (line.toList ++ padding ++ (Terminator.both.chars ++ back)) =
          (line.toList ++ padding) :: splitLines back :=
        splitLines_append_terminator hline fun h ↦ absurd h (by decide)
      have hempty : ofText rest.text =
          cons .skipped (ofLines (Text.lines (String.ofList back))) := by
        rw [Spelling.text, hback]
        exact ofText_of_splitLines (splitLines_append_newline .nil back)
      rw [hempty] at hrest
      rw [Spelling.text, hchars, ofText_of_splitLines hsplit]
      apply alike_ofLines_cons (parseLine_append hpadding.2 line)
      exact hrest.of_cons_skipped.mono fun hapart ↦ hapart.1 rfl hfeed
    · have hapart : terminator = .carriageReturn → rest.chars.head? ≠ some '\n' :=
        fun ht hf ↦ hmerged ⟨ht, hf⟩
      rw [Spelling.text, Spelling.chars,
        ofText_of_splitLines (splitLines_append_terminator hline hapart)]
      exact alike_ofLines_cons (parseLine_append hpadding.2 line) (hrest.mono And.right)

end Reading

private theorem output_generate_of_alike {numbered : Prop} {text other : String}
    (h : Reading.Alike numbered (Reading.ofText text) (Reading.ofText other)) (format : Format) :
    (generate format text.toUTF8 none).output = (generate format other.toUTF8 none).output := by
  rw [output_generate_toUTF8, output_generate_toUTF8, h.assignments, h.fault]

/-- Two ways to write the same lines lead to the same output. Both runs succeed with the same count,
or both fail at a malformed line; it has the same number in both if no two terminators merge in
either text. -/
theorem spelling_does_not_matter (format : Format) {written : List String}
    (hwritten : ∀ line ∈ written, IsLine line.toList) (spelling other : Spelling written) :
    (generate format spelling.text.toUTF8 none).output =
        (generate format other.text.toUTF8 none).output ∧
      ((∃ count, (generate format spelling.text.toUTF8 none).result = .ok count ∧
          (generate format other.text.toUTF8 none).result = .ok count) ∨
        ∃ number number', (generate format spelling.text.toUTF8 none).result =
            .error (.line number .multipleSeparators) ∧
          (generate format other.text.toUTF8 none).result =
            .error (.line number' .multipleSeparators)) ∧
      (spelling.Apart → other.Apart →
        (generate format spelling.text.toUTF8 none).result =
          (generate format other.text.toUTF8 none).result) := by
  have halike := (Reading.alike_ofText_text hwritten spelling).trans_symm
    (Reading.alike_ofText_text hwritten other)
  refine ⟨output_generate_of_alike halike format, ?_⟩
  rw [result_generate_toUTF8, result_generate_toUTF8]
  cases hfault : (Reading.ofText spelling.text).fault with
  | none =>
    have hok : ((Reading.ofText spelling.text).script format).result = .ok _ :=
      (Reading.result_script_eq_ok_iff format _ _).mpr ⟨hfault, rfl⟩
    have hother : ((Reading.ofText other.text).script format).result = .ok _ :=
      (Reading.result_script_eq_ok_iff format _ _).mpr
        ⟨halike.fault ▸ hfault, congrArg List.length halike.assignments.symm⟩
    exact ⟨.inl ⟨_, hok, hother⟩, fun _ _ ↦ hok.trans hother.symm⟩
  | some fault =>
    cases fault
    have herror : ((Reading.ofText spelling.text).script format).result = .error _ :=
      (Reading.result_script_eq_error_iff format _ _).mpr ⟨_, hfault, rfl⟩
    have hother : ((Reading.ofText other.text).script format).result = .error _ :=
      (Reading.result_script_eq_error_iff format _ _).mpr ⟨_, halike.fault ▸ hfault, rfl⟩
    refine ⟨.inr ⟨_, _, herror, hother⟩, ?_⟩
    intro hs ho
    rw [herror, hother, halike.length ⟨hs, ho⟩ (by rw [hfault]; exact nofun)]

/-- Three ways to write the same lines: in the first a carriage return and a line feed merge, so the
malformed line has the number 2 instead of 3, but the output is the same. -/
theorem spelling_does_not_matter_sample :
    ∃ merged spread plain : Spelling ["A=y", "", "B=1=2"],
      merged.text = "A=y\r\nB=1=2" ∧ spread.text = "A=y\t\x1c\r\n\u2028\rB=1=2 \r" ∧
      plain.text = "A=y\n\nB=1=2" ∧
      (∀ line ∈ ["A=y", "", "B=1=2"], IsLine line.toList) ∧
      (generate (.header "G") merged.text.toUTF8 none).output =
        (generate (.header "G") spread.text.toUTF8 none).output ∧
      (generate (.header "G") merged.text.toUTF8 none).result =
        .error (.line 2 .multipleSeparators) ∧
      spread.Apart ∧ plain.Apart ∧
      (generate (.header "G") spread.text.toUTF8 none).result =
        (generate (.header "G") plain.text.toUTF8 none).result := by
  let merged : Spelling ["A=y", "", "B=1=2"] :=
    .cons "A=y" [] ⟨nofun, nofun⟩ .carriageReturn
      (.cons "" [] ⟨nofun, nofun⟩ .lineFeed (.last "B=1=2" [] ⟨nofun, nofun⟩))
  let spread : Spelling ["A=y", "", "B=1=2"] :=
    .cons "A=y" ['\t', '\x1c'] (by decide) .both
      (.cons "" ['\u2028'] (by decide) .carriageReturn
        (.cons "B=1=2" [' '] (by decide) .carriageReturn .nil))
  let plain : Spelling ["A=y", "", "B=1=2"] :=
    .cons "A=y" [] ⟨nofun, nofun⟩ .lineFeed
      (.cons "" [] ⟨nofun, nofun⟩ .lineFeed (.last "B=1=2" [] ⟨nofun, nofun⟩))
  have hwritten : ∀ line ∈ ["A=y", "", "B=1=2"], IsLine line.toList := by decide +kernel
  have hmerged : merged.text = "A=y\r\nB=1=2" := by decide +kernel
  have hsecond : (Text.lines merged.text)[1]? = some "B=1=2" := by decide +kernel
  have hspread : spread.Apart := ⟨nofun, by decide, by decide, trivial⟩
  have hplain : plain.Apart := ⟨nofun, nofun, trivial⟩
  refine ⟨merged, spread, plain, hmerged, by decide +kernel, by decide +kernel, hwritten,
    (spelling_does_not_matter (.header "G") hwritten merged spread).1, ?_, hspread, hplain,
    (spelling_does_not_matter (.header "G") hwritten spread plain).2.2 hspread hplain⟩
  exact (generate_of_malformed (.header "G") hsecond (by decide +kernel) (by decide +kernel)).2

end BootConfig.Config
