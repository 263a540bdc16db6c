import BootConfig.Proofs.Config.Generate

/-!
# Reading a cache back

A cache is a configuration again: its banner says nothing, and each further line makes the
assignment for which it was written, with the prefix in front of the name.
-/

namespace BootConfig.Config

open BootConfig.Text (IsLine unlines)

namespace Assignment

/-- The assignment with the prefix of written names in front of its name. -/
def qualified (a : Assignment) : Assignment :=
  { a with name := namePrefix ++ a.name }

private theorem row_autoConf (a : Assignment) : Format.autoConf.row a = a.qualified.line :=
  rfl

private theorem Clean.qualified {a : Assignment} (h : a.Clean) : a.qualified.Clean where
  name_isLine := by
    rw [Assignment.qualified, String.toList_append]
    exact IsLine.append (by decide) h.name_isLine
  raw_isLine := h.raw_isLine
  not_mem_name := by
    rw [Assignment.qualified, String.toList_append, List.mem_append, not_or]
    exact ⟨by decide, h.not_mem_name⟩
  not_mem_raw := h.not_mem_raw
  trimEnd_raw := h.trimEnd_raw

/-- The row of a clean assignment in a cache makes the assignment with the prefix. -/
theorem Clean.assignmentOf?_row {a : Assignment} (h : a.Clean) :
    assignmentOf? (Format.autoConf.row a) = some a.qualified := by
  rw [row_autoConf]
  apply h.qualified.assignmentOf?_line
  rw [Assignment.qualified, String.toList_append]
  exact fun he ↦ absurd (Option.some.inj he) (by decide)

end Assignment

private theorem isLine_of_mem_banner : ∀ line ∈ Format.autoConf.opening, IsLine line.toList := by
  decide +kernel

private theorem map_parseLine_banner :
    Format.autoConf.opening.map parseLine = List.replicate 5 (.ok none) := by
  decide +kernel

private theorem assignmentsOf_banner : Format.autoConf.opening.filterMap assignmentOf? = [] := by
  decide +kernel

/-- The lines of a cache. -/
def cacheLines (assignments : List Assignment) : List String :=
  Format.autoConf.opening ++ assignments.map Format.autoConf.row

variable {assignments : List Assignment}

private theorem lines_cache (h : ∀ a ∈ assignments, a.Clean) :
    Text.lines (unlines (cacheLines assignments)) = cacheLines assignments := by
  apply Text.lines_unlines
  intro line hline
  rcases List.mem_append.mp hline with hopening | hrow
  · exact isLine_of_mem_banner line hopening
  · obtain ⟨a, ha, rfl⟩ := List.mem_map.mp hrow
    exact (h a ha).isLine_row .autoConf

private theorem map_parseLine_cacheLines (h : ∀ a ∈ assignments, a.Clean) :
    (cacheLines assignments).map parseLine =
      List.replicate 5 (.ok none) ++ assignments.map fun a ↦ .ok (some a.qualified) := by
  rw [cacheLines, List.map_append, map_parseLine_banner, List.map_map]
  congr 1
  apply List.map_congr_left
  intro a ha
  exact parseLine_of_assignmentOf? (h a ha).assignmentOf?_row

private theorem not_malformed_cacheLines (h : ∀ a ∈ assignments, a.Clean) :
    ∀ line ∈ cacheLines assignments, ¬Malformed line := by
  intro line hline hmalformed
  have hread := List.mem_map_of_mem (f := parseLine) hline
  rw [map_parseLine_cacheLines h, parseLine_eq, if_pos hmalformed] at hread
  simp at hread

private theorem assignmentsOf_cacheLines (h : ∀ a ∈ assignments, a.Clean) :
    assignmentsOf (cacheLines assignments) = assignments.map Assignment.qualified := by
  rw [assignmentsOf, cacheLines, List.filterMap_append, assignmentsOf_banner, List.nil_append,
    List.filterMap_map, ← List.filterMap_eq_map]
  apply List.filterMap_congr
  intro a ha
  exact (h a ha).assignmentOf?_row

/-- A cache is read back: its five banner lines say nothing, the others make the assignments of the
configuration in their order, with the prefix in front of each name and the same raw value and
value, and a cache that is generated from the cache has as many assignments. -/
theorem cache_reads_back (text : String) (count : Nat)
    (h : (generate .autoConf text.toUTF8 none).result = .ok count) :
    ∃ cache : String, (generate .autoConf text.toUTF8 none).output = cache.toUTF8 ∧
      (Text.lines cache).map parseLine =
        List.replicate 5 (.ok none) ++
          (assignmentsOf (Text.lines text)).map (fun a ↦ .ok (some a.qualified)) ∧
      (assignmentsOf (Text.lines cache)).map (fun a ↦ (a.name, a.raw, a.value)) =
        (assignmentsOf (Text.lines text)).map (fun a ↦ (namePrefix ++ a.name, a.raw, a.value)) ∧
      (generate .autoConf cache.toUTF8 none).result = .ok count := by
  have hclean : ∀ a ∈ assignmentsOf (Text.lines text), a.Clean :=
    fun a ↦ clean_of_mem_assignmentsOf
  obtain ⟨hwritten, hcount⟩ := generate_of_not_malformed .autoConf _ (not_malformed_of_generate h)
  have hlines := lines_cache hclean
  have hassignments := assignmentsOf_cacheLines hclean
  have hagain : ∀ line ∈ Text.lines (unlines (cacheLines (assignmentsOf (Text.lines text)))),
      ¬Malformed line := by
    rw [hlines]
    exact not_malformed_cacheLines hclean
  refine ⟨unlines (cacheLines (assignmentsOf (Text.lines text))), ?_, ?_, ?_, ?_⟩
  · rw [hwritten, cacheLines, Format.closing, List.append_nil]
  · rw [hlines, map_parseLine_cacheLines hclean]
  · rw [hlines, hassignments, List.map_map]
    rfl
  · rw [(generate_of_not_malformed .autoConf _ hagain).2, hlines, hassignments, List.length_map,
      ← hcount, h]

/-- A cache is read back where names and values hold blanks, a comment mark or nothing. -/
theorem cache_reads_back_sample :
    (generate .autoConf " #A=y\x1c\r=\r\n#C=n\nB \t= m\n".toUTF8 none).result = .ok 3 ∧
      ∃ cache : String,
        (generate .autoConf " #A=y\x1c\r=\r\n#C=n\nB \t= m\n".toUTF8 none).output = cache.toUTF8 ∧
        (Text.lines cache).map parseLine =
          List.replicate 5 (.ok none) ++
            [.ok (some ⟨"CONFIG_ #A", "y"⟩), .ok (some ⟨"CONFIG_", ""⟩),
              .ok (some ⟨"CONFIG_B \t", " m"⟩)] ∧
        (generate .autoConf cache.toUTF8 none).result = .ok 3 := by
  have hok : (generate .autoConf " #A=y\x1c\r=\r\n#C=n\nB \t= m\n".toUTF8 none).result =
      .ok 3 := by
    rw [(generate_of_not_malformed .autoConf _ (by decide +kernel)).2]
    decide +kernel
  obtain ⟨cache, hwritten, hread, -, hagain⟩ := cache_reads_back _ 3 hok
  refine ⟨hok, cache, hwritten, ?_, hagain⟩
  rw [hread]
  decide +kernel

end BootConfig.Config
