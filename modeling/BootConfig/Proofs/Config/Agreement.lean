import BootConfig.Proofs.Config.Generate

/-!
# A cache and a header say the same

From the lines of either format the assignments can be told again, as long as no name holds a space.
So a cache and a header for one configuration agree, and different assignments never have the same
line in a header.
-/

namespace BootConfig.Config

open BootConfig.Text (before behind before_append_cons behind_append_cons unlines)

/-- The assignment that a line of a cache restates. Its name ends at the first `=`. -/
def decodeCacheLine (line : String) : Option Assignment :=
  (line.toList.dropPrefix? "CONFIG_".toList).bind fun rest ↦
    if '=' ∈ rest then
      some ⟨String.ofList (before '=' rest), String.ofList (behind '=' rest)⟩
    else none

/-- The assignment that a line of a header stands for. The name of a definition ends at the first
space, and one without a space gives `y`; a remark that there is no definition gives `n`. -/
def decodeHeaderLine (line : String) : Option Assignment :=
  match line.toList.dropPrefix? "#define CONFIG_".toList with
  | some rest =>
    if ' ' ∈ rest then
      some ⟨String.ofList (before ' ' rest), String.ofList (behind ' ' rest)⟩
    else some ⟨String.ofList rest, "y"⟩
  | none =>
    (line.toList.dropPrefix? "/* CONFIG_".toList).bind fun rest ↦
      (rest.dropSuffix? " is not defined */".toList).map fun name ↦ ⟨String.ofList name, "n"⟩

private theorem dropPrefix?_append (front rest : List Char) :
    (front ++ rest).dropPrefix? front = some rest :=
  List.dropPrefix?_eq_some_iff.mpr ⟨front, rfl, BEq.rfl⟩

private theorem dropSuffix?_append (front rest : List Char) :
    (front ++ rest).dropSuffix? rest = some front :=
  List.dropSuffix?_eq_some_iff.mpr ⟨rest, rfl, BEq.rfl⟩

/-- The row of an assignment in a cache restates it, unless its name holds an `=`. -/
theorem decodeCacheLine_row {a : Assignment} (h : '=' ∉ a.name.toList) :
    decodeCacheLine (Format.autoConf.row a) = some a := by
  have hrow : (Format.autoConf.row a).toList =
      "CONFIG_".toList ++ (a.name.toList ++ '=' :: a.raw.toList) := by
    simp [Format.row]
  rw [decodeCacheLine, hrow, dropPrefix?_append, Option.bind_some,
    if_pos (List.mem_append_right _ List.mem_cons_self), before_append_cons h,
    behind_append_cons h, String.ofList_toList, String.ofList_toList]

/-- The row of an assignment in a header stands for it, unless its name holds a space. -/
theorem decodeHeaderLine_row (guard : String) {a : Assignment} (h : ' ' ∉ a.name.toList) :
    decodeHeaderLine ((Format.header guard).row a) = some a := by
  obtain ⟨name, raw⟩ := a
  by_cases hyes : raw = "y"
  · subst hyes
    have hrow : ((Format.header guard).row ⟨name, "y"⟩).toList =
        "#define CONFIG_".toList ++ name.toList := by
      simp [Format.row]
    simp only [decodeHeaderLine, hrow, dropPrefix?_append]
    rw [if_neg h, String.ofList_toList]
  · by_cases hno : raw = "n"
    · subst hno
      have hrow : ((Format.header guard).row ⟨name, "n"⟩).toList =
          "/* CONFIG_".toList ++ (name.toList ++ " is not defined */".toList) := by
        simp [Format.row]
      have hnone : ("/* CONFIG_".toList ++ (name.toList ++ " is not defined */".toList)).dropPrefix?
          "#define CONFIG_".toList = none :=
        rfl
      simp only [decodeHeaderLine, hrow, hnone, dropPrefix?_append, Option.bind_some,
        dropSuffix?_append, Option.map_some, String.ofList_toList]
    · have hrow : ((Format.header guard).row ⟨name, raw⟩).toList =
          "#define CONFIG_".toList ++ (name.toList ++ ' ' :: raw.toList) := by
        simp [Format.row, hyes, hno]
      simp only [decodeHeaderLine, hrow, dropPrefix?_append]
      rw [if_pos (List.mem_append_right _ List.mem_cons_self), before_append_cons h,
        behind_append_cons h, String.ofList_toList, String.ofList_toList]

private theorem Reading.result_script (reading : Reading) (format other : Format) :
    (reading.script format).result = (reading.script other).result := by
  unfold script
  cases reading.fault <;> rfl

private theorem result_generate (format other : Format) (text : String) :
    (generate format text.toUTF8 none).result = (generate other text.toUTF8 none).result := by
  rw [generate_toUTF8, generate_toUTF8, Script.run_unlimited, Script.run_unlimited]
  exact Reading.result_script _ format other

/-- What a successful run writes between its prologue and its epilogue. -/
def body (format : Format) (text : String) : String :=
  unlines ((assignmentsOf (Text.lines text)).map format.row)

private theorem output_generate {format : Format} {text : String} {count : Nat}
    (h : (generate format text.toUTF8 none).result = .ok count) :
    (generate format text.toUTF8 none).output =
      (format.prologue ++ body format text ++ format.epilogue).toUTF8 := by
  rw [(generate_of_not_malformed format text (not_malformed_of_generate h)).1, Text.unlines_append,
    Text.unlines_append, format.prologue_eq, format.epilogue_eq, body]

private theorem map_decode_lines_body (format : Format) (text : String)
    {decode : String → Option Assignment}
    (h : ∀ a ∈ assignmentsOf (Text.lines text), decode (format.row a) = some a) :
    (Text.lines (body format text)).map decode =
      (assignmentsOf (Text.lines text)).map some := by
  have hlines : Text.lines (body format text) =
      (assignmentsOf (Text.lines text)).map format.row := by
    apply Text.lines_unlines
    intro line hline
    obtain ⟨a, ha, rfl⟩ := List.mem_map.mp hline
    exact (clean_of_mem_assignmentsOf ha).isLine_row format
  rw [hlines, List.map_map]
  exact List.map_congr_left h

/-- A cache and a header for one configuration end in the same way. If no name holds a space, they
say the same: decoding the lines of either body gives the assignments of the configuration. Nor have
two assignments without a space in their names the same line in a header. -/
theorem header_agrees_with_cache (text guard : String) :
    (generate (.header guard) text.toUTF8 none).result =
        (generate .autoConf text.toUTF8 none).result ∧
      (∀ count, (generate .autoConf text.toUTF8 none).result = .ok count →
        (∀ a ∈ assignmentsOf (Text.lines text), ' ' ∉ a.name.toList) →
        ∃ cacheBody headerBody : String,
          (generate .autoConf text.toUTF8 none).output =
            (Format.autoConf.prologue ++ cacheBody ++ Format.autoConf.epilogue).toUTF8 ∧
          (generate (.header guard) text.toUTF8 none).output =
            ((Format.header guard).prologue ++ headerBody ++
              (Format.header guard).epilogue).toUTF8 ∧
          (Text.lines cacheBody).map decodeCacheLine =
            (assignmentsOf (Text.lines text)).map some ∧
          (Text.lines headerBody).map decodeHeaderLine =
            (assignmentsOf (Text.lines text)).map some) ∧
      ∀ a b : Assignment, ' ' ∉ a.name.toList → ' ' ∉ b.name.toList →
        (Format.header guard).assignment a = (Format.header guard).assignment b → a = b := by
  have hresult := result_generate (.header guard) .autoConf text
  refine ⟨hresult, ?_, ?_⟩
  · intro count hok hspace
    refine ⟨body .autoConf text, body (.header guard) text, output_generate hok,
      output_generate (hresult.trans hok), ?_, ?_⟩
    · apply map_decode_lines_body
      exact fun a ha ↦ decodeCacheLine_row (clean_of_mem_assignmentsOf ha).not_mem_name
    · apply map_decode_lines_body
      exact fun a ha ↦ decodeHeaderLine_row guard (hspace a ha)
  · intro a b ha hb heq
    rw [Format.assignment_eq, Format.assignment_eq] at heq
    have hrow := (String.append_left_inj _).mp heq
    have hdecode := congrArg decodeHeaderLine hrow
    rw [decodeHeaderLine_row guard ha, decodeHeaderLine_row guard hb] at hdecode
    exact Option.some.inj hdecode

/-- A cache and a header agree on values that nearly look alike and on a name that looks like the
end of a remark, and an empty value has another line than `y`. -/
theorem header_agrees_with_cache_sample :
    (generate (.header "G") "A=\nB=y\n*/=n\n#=\nC= n\nD=m\n".toUTF8 none).result = .ok 5 ∧
      (∃ cacheBody headerBody : String,
        (generate .autoConf "A=\nB=y\n*/=n\n#=\nC= n\nD=m\n".toUTF8 none).output =
          (Format.autoConf.prologue ++ cacheBody ++ Format.autoConf.epilogue).toUTF8 ∧
        (generate (.header "G") "A=\nB=y\n*/=n\n#=\nC= n\nD=m\n".toUTF8 none).output =
          ((Format.header "G").prologue ++ headerBody ++ (Format.header "G").epilogue).toUTF8 ∧
        (Text.lines cacheBody).map decodeCacheLine = (Text.lines headerBody).map decodeHeaderLine ∧
        (Text.lines headerBody).map decodeHeaderLine =
          [some ⟨"A", ""⟩, some ⟨"B", "y"⟩, some ⟨"*/", "n"⟩, some ⟨"C", " n"⟩,
            some ⟨"D", "m"⟩]) ∧
      (Format.header "G").assignment ⟨"A", ""⟩ ≠ (Format.header "G").assignment ⟨"A", "y"⟩ := by
  have hok : (generate .autoConf "A=\nB=y\n*/=n\n#=\nC= n\nD=m\n".toUTF8 none).result = .ok 5 := by
    rw [(generate_of_not_malformed .autoConf _ (by decide +kernel)).2]
    decide +kernel
  obtain ⟨hresult, hbodies, hinjective⟩ :=
    header_agrees_with_cache "A=\nB=y\n*/=n\n#=\nC= n\nD=m\n" "G"
  obtain ⟨cacheBody, headerBody, hcache, hheader, hcacheLines, hheaderLines⟩ :=
    hbodies 5 hok (by decide +kernel)
  refine ⟨hresult.trans hok, ⟨cacheBody, headerBody, hcache, hheader, ?_, ?_⟩, ?_⟩
  · rw [hcacheLines, hheaderLines]
  · rw [hheaderLines]
    decide +kernel
  · intro heq
    have hsame := hinjective ⟨"A", ""⟩ ⟨"A", "y"⟩ (by decide) (by decide) heq
    exact absurd (congrArg Assignment.raw hsame) (by decide)

end BootConfig.Config
