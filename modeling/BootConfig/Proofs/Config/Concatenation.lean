import BootConfig.Proofs.Config.Generate
import BootConfig.Proofs.Text.Seam

/-!
# Configurations one behind the other

A configuration that ends where a line does can have another one put behind it. What both say is
what the first says and then, unless it is at fault, what the second says. So the counts add up, and
between the lines of the format one body stands behind the other. Where a carriage return meets a
line feed at the seam, an empty line is gone, which moves the number of a malformed line but says
nothing.
-/

namespace BootConfig.Config

open BootConfig.Text (EndsLine Merges unlines)

namespace Reading

/-- The reading of lines behind others. What is at fault ends it. -/
def followedBy (reading behind : Reading) : Reading :=
  match reading.fault with
  | none => ⟨reading.entries ++ behind.entries, behind.fault⟩
  | some _ => reading

/-- Nothing is read behind a fault. -/
theorem followedBy_of_fault {reading : Reading} (h : reading.fault ≠ none) (behind : Reading) :
    reading.followedBy behind = reading := by
  unfold followedBy
  split
  · next hnone => exact (h hnone).elim
  · rfl

/-- Behind a reading that is not at fault, everything is read. -/
theorem followedBy_of_no_fault {reading : Reading} (h : reading.fault = none) (behind : Reading) :
    reading.followedBy behind = ⟨reading.entries ++ behind.entries, behind.fault⟩ := by
  rw [followedBy, h]

private theorem cons_followedBy (entry : Entry) (reading behind : Reading) :
    (cons entry reading).followedBy behind = cons entry (reading.followedBy behind) := by
  obtain ⟨entries, _ | fault⟩ := reading <;> rfl

private theorem ofLines_append_lines (lines behind : List String) :
    ofLines (lines ++ behind) = (ofLines lines).followedBy (ofLines behind) := by
  induction lines with
  | nil => rfl
  | cons line rest ih =>
    rw [List.cons_append]
    by_cases hline : Malformed line
    · rw [ofLines_cons_of_malformed hline, ofLines_cons_of_malformed hline]
      rfl
    · rw [ofLines_cons_of_not_malformed hline, ofLines_cons_of_not_malformed hline, ih,
        cons_followedBy]

private theorem length_entries_ofLines {lines : List String} (h : (ofLines lines).fault = none) :
    (ofLines lines).entries.length = lines.length := by
  rw [ofLines_of_not_malformed ((fault_ofLines_eq_none_iff lines).mp h), List.length_map]

/-- The entries behind a seam where two characters merge are all but that of the empty line. -/
theorem ofText_append_of_merges {text more : String} (h : EndsLine text.toList)
    (hmerges : Merges text.toList more.toList) :
    ∃ behind, ofText more = cons .skipped behind ∧
      ofText (text ++ more) = (ofText text).followedBy behind := by
  obtain ⟨rest, hmore, hboth⟩ := Text.lines_append_of_merges h hmerges
  refine ⟨ofLines rest, ?_, ?_⟩
  · rw [ofText, hmore]
    rfl
  · rw [ofText, hboth, ofLines_append_lines, ofText]

/-- Where nothing merges, the other text is read behind the one. -/
theorem ofText_append {text more : String} (h : EndsLine text.toList)
    (hmerges : ¬Merges text.toList more.toList) :
    ofText (text ++ more) = (ofText text).followedBy (ofText more) := by
  rw [ofText, Text.lines_append h hmerges, ofLines_append_lines, ofText, ofText]

variable {text : String}

private theorem ofText_append_of_fault (h : EndsLine text.toList)
    (hfault : (ofText text).fault ≠ none)
    (more : String) : ofText (text ++ more) = ofText text := by
  by_cases hmerges : Merges text.toList more.toList
  · obtain ⟨behind, -, hboth⟩ := ofText_append_of_merges h hmerges
    rw [hboth, followedBy_of_fault hfault]
  · rw [ofText_append h hmerges, followedBy_of_fault hfault]

/-- What both of two texts say, the first of which is not at fault. -/
structure Extends (text more : String) : Prop where
  assignments : (ofText (text ++ more)).assignments =
    (ofText text).assignments ++ (ofText more).assignments
  fault : (ofText (text ++ more)).fault = (ofText more).fault
  length : (ofText (text ++ more)).entries.length +
      (if Merges text.toList more.toList then 1 else 0) =
    (Text.lines text).length + (ofText more).entries.length

private theorem extends_of_no_fault (h : EndsLine text.toList) (hfault : (ofText text).fault = none)
    (more : String) : Extends text more := by
  have hlength := length_entries_ofLines hfault
  by_cases hmerges : Merges text.toList more.toList
  · obtain ⟨behind, hmore, hboth⟩ := ofText_append_of_merges h hmerges
    rw [followedBy_of_no_fault hfault] at hboth
    constructor
    · rw [hboth, hmore, assignments, assignments, assignments, List.filterMap_append]
      rfl
    · rw [hboth, hmore]
      rfl
    · rw [hboth, hmore, if_pos hmerges, ← hlength, cons, List.length_append, List.length_cons]
      rfl
  · have hboth := ofText_append h hmerges
    rw [followedBy_of_no_fault hfault] at hboth
    constructor
    · rw [hboth, assignments, assignments, assignments, List.filterMap_append]
    · rw [hboth]
    · rw [hboth, if_neg hmerges, ← hlength, List.length_append]
      rfl

end Reading

/-- What a run on a text writes: the prologue, a body, and, if it succeeds, the epilogue. -/
def Writes (format : Format) (text body : String) : Prop :=
  (generate format text.toUTF8 none).output =
    (format.prologue ++ body ++
      if (generate format text.toUTF8 none).result.isOk then format.epilogue else "").toUTF8

private theorem isOk_result_generate (format : Format) (text : String) :
    (generate format text.toUTF8 none).result.isOk = (Reading.ofText text).fault.isNone := by
  rw [result_generate_toUTF8, Reading.script]
  cases (Reading.ofText text).fault <;> rfl

private theorem writes_rows (format : Format) (text : String) :
    Writes format text (unlines ((Reading.ofText text).assignments.map format.row)) := by
  rw [Writes, output_generate_toUTF8, isOk_result_generate, Text.unlines_append,
    Text.unlines_append, format.prologue_eq, format.epilogue_eq]
  cases (Reading.ofText text).fault <;> rfl

/-- What is generated for two configurations, of which the first ends where a line does. If the
first is at fault, both together end in the same way with the same output. Otherwise the counts add
up, or the line at which the second is at fault has a number that is larger by the lines of the
first, or by one less where a terminator spans the seam; and the body of both is that of the first
with that of the second behind it. -/
theorem generate_append (format : Format) {text : String} (h : EndsLine text.toList)
    (more : String) :
    (∀ e, (generate format text.toUTF8 none).result = .error e →
      (generate format (text ++ more).toUTF8 none).result = .error e ∧
      (generate format (text ++ more).toUTF8 none).output =
        (generate format text.toUTF8 none).output) ∧
    ∀ count, (generate format text.toUTF8 none).result = .ok count →
      (∀ others, (generate format more.toUTF8 none).result = .ok others →
        (generate format (text ++ more).toUTF8 none).result = .ok (count + others)) ∧
      (∀ number fault, (generate format more.toUTF8 none).result = .error (.line number fault) →
        (generate format (text ++ more).toUTF8 none).result =
          .error (.line ((Text.lines text).length + number -
            if Merges text.toList more.toList then 1 else 0) fault)) ∧
      ∃ body moreBody, Writes format text body ∧ Writes format more moreBody ∧
        Writes format (text ++ more) (body ++ moreBody) := by
  simp only [result_generate_toUTF8, Reading.result_script_eq_ok_iff,
    Reading.result_script_eq_error_iff]
  constructor
  · rintro e ⟨fault, hfault, hline⟩
    have hsame := Reading.ofText_append_of_fault h (by rw [hfault]; exact nofun) more
    rw [output_generate_toUTF8, output_generate_toUTF8, hsame]
    exact ⟨⟨fault, hfault, hline⟩, rfl⟩
  · rintro count ⟨hfault, hcount⟩
    have hboth := Reading.extends_of_no_fault h hfault more
    refine ⟨?_, ?_, _, _, writes_rows format text, writes_rows format more, ?_⟩
    · rintro others ⟨hnone, hothers⟩
      rw [hboth.fault, hboth.assignments, List.length_append, hcount, hothers]
      exact ⟨hnone, rfl⟩
    · rintro number fault ⟨_, hsome, hline⟩
      cases hline
      refine ⟨fault, hboth.fault.trans hsome, ?_⟩
      have hlength := hboth.length
      congr 1
      omega
    · rw [← Text.unlines_append, ← List.map_append, ← hboth.assignments]
      exact writes_rows format (text ++ more)

/-- A carriage return and a line feed merge at the seam, so the third line of the second text is the
third of both and not the fourth. Behind a malformed line nothing counts. -/
theorem generate_append_sample :
    EndsLine "A=y\r".toList ∧ EndsLine "A=y\nB==\n".toList ∧
      (generate .autoConf "A=y\r".toUTF8 none).result = .ok 1 ∧
      (generate .autoConf "\nB=n\n".toUTF8 none).result = .ok 1 ∧
      (generate .autoConf ("A=y\r" ++ "\nB=n\n").toUTF8 none).result = .ok (1 + 1) ∧
      (generate .autoConf "\nB=n\n=C=".toUTF8 none).result =
        .error (.line 3 .multipleSeparators) ∧
      (generate .autoConf ("A=y\r" ++ "\nB=n\n=C=").toUTF8 none).result =
        .error (.line 3 .multipleSeparators) ∧
      (∃ body more, Writes .autoConf "A=y\r" body ∧ Writes .autoConf "\nB=n\n=C=" more ∧
        Writes .autoConf ("A=y\r" ++ "\nB=n\n=C=") (body ++ more)) ∧
      (generate .autoConf ("A=y\nB==\n" ++ "C=m").toUTF8 none).result =
        .error (.line 2 .multipleSeparators) := by
  have hends : EndsLine "A=y\r".toList := by decide
  have hendsFault : EndsLine "A=y\nB==\n".toList := by decide
  have hfirst : (generate .autoConf "A=y\r".toUTF8 none).result = .ok 1 := by
    rw [(generate_of_not_malformed .autoConf _ (by decide +kernel)).2]
    decide +kernel
  have hsecond : (generate .autoConf "\nB=n\n".toUTF8 none).result = .ok 1 := by
    rw [(generate_of_not_malformed .autoConf _ (by decide +kernel)).2]
    decide +kernel
  have hthird : (Text.lines "\nB=n\n=C=")[2]? = some "=C=" := by decide +kernel
  have hline : (generate .autoConf "\nB=n\n=C=".toUTF8 none).result =
      .error (.line 3 .multipleSeparators) :=
    (generate_of_malformed .autoConf hthird (by decide +kernel) (by decide +kernel)).2
  have hlast : (Text.lines "A=y\nB==\n")[1]? = some "B==" := by decide +kernel
  have hfault : (generate .autoConf "A=y\nB==\n".toUTF8 none).result =
      .error (.line 2 .multipleSeparators) :=
    (generate_of_malformed .autoConf hlast (by decide +kernel) (by decide +kernel)).2
  refine ⟨hends, hendsFault, hfirst, hsecond,
    ((generate_append .autoConf hends _).2 1 hfirst).1 1 hsecond, hline,
    ((generate_append .autoConf hends _).2 1 hfirst).2.1 3 _ hline,
    ((generate_append .autoConf hends _).2 1 hfirst).2.2,
    ((generate_append .autoConf hendsFault _).1 _ hfault).1⟩

end BootConfig.Config
