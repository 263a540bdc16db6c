import BootConfig.Proofs.Text.Fault

/-!
# Notations of a number

The digits of a number in some base have the number as their value. So a number below the bound is
read from its decimal digits, and behind an announced base from its digits in that base, after any
zeros and with letters in either case.
-/

namespace BootConfig.Numeral

/-! ### The digits of a number -/

private theorem digitValue?_digitChar : ∀ d < 16, digitValue? (Nat.digitChar d) = some d := by
  decide

variable {base : Nat}

private theorem valueOf_concat (base : Nat) (cs : List Char) (c : Char) :
    valueOf base (cs ++ [c]) = shift base (valueOf base cs) c := by
  rw [valueOf, List.foldl_append, valueOf]
  rfl

private theorem toDigits_spec (base : Nat) (hmin : 1 < base) (hmax : base ≤ 16) (n : Nat) :
    AreDigits base (Nat.toDigits base n) ∧ valueOf base (Nat.toDigits base n) = n := by
  have hlast {d : Nat} (hd : d < base) :
      digitValue? (Nat.digitChar d) = some d ∧ isDigitOf base (Nat.digitChar d) = true := by
    have hvalue := digitValue?_digitChar d (Nat.lt_of_lt_of_le hd hmax)
    exact ⟨hvalue, by rw [isDigitOf, hvalue]; exact decide_eq_true hd⟩
  induction n using Nat.strongRecOn with
  | ind n ih =>
    rw [Nat.toDigits_eq_if hmin]
    split
    · next hsmall =>
      obtain ⟨hvalue, hdigit⟩ := hlast hsmall
      refine ⟨⟨List.cons_ne_nil _ _, List.forall_mem_singleton.mpr hdigit⟩, ?_⟩
      rw [← List.nil_append [_], valueOf_concat, shift, hvalue]
      simp [valueOf]
    · next hlarge =>
      have hpos : 0 < n := by omega
      obtain ⟨hdigits, hfront⟩ := ih (n / base) (Nat.div_lt_self hpos hmin)
      obtain ⟨hvalue, hdigit⟩ := hlast (Nat.mod_lt n (Nat.zero_lt_of_lt hmin))
      refine ⟨⟨by simp, ?_⟩, ?_⟩
      · rw [List.forall_mem_append]
        exact ⟨hdigits.isDigitOf, List.forall_mem_singleton.mpr hdigit⟩
      · rw [valueOf_concat, hfront, shift, hvalue, Option.getD_some]
        exact Nat.div_add_mod' n base

private theorem exists_toDigits_eq_cons (base : Nat) (hmin : 1 < base) (hmax : base ≤ 16) {n : Nat}
    (hn : 0 < n) : ∃ c cs, Nat.toDigits base n = c :: cs ∧ c ≠ '0' := by
  have hfirst : ∀ d < 16, 0 < d → Nat.digitChar d ≠ '0' := by decide
  induction n using Nat.strongRecOn with
  | ind n ih =>
    rw [Nat.toDigits_eq_if hmin]
    split
    · next hsmall => exact ⟨_, _, rfl, hfirst n (by omega) hn⟩
    · next hlarge =>
      have hpos : 0 < n / base := Nat.div_pos (by omega) (by omega)
      obtain ⟨c, cs, hdigits, hc⟩ := ih (n / base) (Nat.div_lt_self hn hmin) hpos
      exact ⟨c, cs ++ [_], by rw [hdigits, List.cons_append], hc⟩

/-! ### Letter cases -/

private theorem digitValue?_toLower (c : Char) : digitValue? c.toLower = digitValue? c := by
  have hcase := toNat_toLower c
  simp only [digitValue?, hcase, Char.reduceToNat]
  grind

private theorem areDigits_of_map_toLower {digits : List Char}
    (h : AreDigits base (digits.map Char.toLower)) :
    AreDigits base digits ∧ valueOf base digits = valueOf base (digits.map Char.toLower) := by
  have hshift : ∀ value c, shift base value c.toLower = shift base value c := by
    intro value c
    rw [shift, digitValue?_toLower, shift]
  refine ⟨⟨mt List.map_eq_nil_iff.mpr h.ne_nil, ?_⟩, ?_⟩
  · intro c hc
    have hdigit := h.isDigitOf _ (List.mem_map_of_mem hc)
    rwa [isDigitOf, digitValue?_toLower] at hdigit
  · simp only [valueOf, List.foldl_map, hshift]

/-! ### Numbers that are read -/

variable {value : UInt64}

private theorem parse_mark_append {mark digits : List Char} (hmark : Mark mark base)
    (hdigits : AreDigits base digits) (hvalue : valueOf base digits = value.toNat) (zeros : Nat) :
    parse (String.ofList (mark ++ (List.replicate zeros '0' ++ digits))) = .ok value := by
  have hannounced := hmark.announces hdigits
  rw [← String.toList_ofList (l := mark ++ digits)] at hannounced
  rw [parse_zeros_append hmark hdigits, parse_eq_ok_iff_of_announces hannounced, ← hvalue]
  exact .unsigned hdigits

/-- A number is read from its digits behind an announced base, with letters in either case. -/
theorem parse_toDigits {mark digits : List Char} (hmark : Mark mark base)
    (hdigits : digits.map Char.toLower = Nat.toDigits base value.toNat) (zeros : Nat) :
    parse (String.ofList (mark ++ (List.replicate zeros '0' ++ digits))) = .ok value := by
  have hbase : 1 < base ∧ base ≤ 16 := by cases hmark <;> decide
  have hspec := toDigits_spec base hbase.1 hbase.2 value.toNat
  rw [← hdigits] at hspec
  obtain ⟨hare, hsame⟩ := areDigits_of_map_toLower hspec.1
  exact parse_mark_append hmark hare (hsame.trans hspec.2) zeros

/-- A number is read from its decimal digits. -/
theorem parse_toString (value : UInt64) : parse (toString value.toNat) = .ok value := by
  have hspec := toDigits_spec 10 (by decide) (by decide) value.toNat
  have htext : (toString value.toNat).toList = Nat.toDigits 10 value.toNat := by
    rw [Nat.toString_eq_repr, Nat.repr, String.toList_ofList]
  have hannounced : Announces (toString value.toNat).toList 10 (Nat.toDigits 10 value.toNat) := by
    rw [htext]
    rcases Nat.eq_zero_or_pos value.toNat with hzero | hpos
    · rw [hzero]
      exact .zero
    · obtain ⟨c, cs, hdigits, hc⟩ :=
        exists_toDigits_eq_cons 10 (by decide) (by decide) hpos
      rw [hdigits]
      exact .decimal hc cs
  have hmagnitude := Magnitude.unsigned hspec.1
  rw [hspec.2] at hmagnitude
  exact (parse_eq_ok_iff_of_announces hannounced).mpr hmagnitude

/-- A number is read from the hexadecimal numeral that is printed for it. -/
theorem parse_hex (value : UInt64) : parse (hex value.toNat) = .ok value := by
  have hspec := toDigits_spec 16 (by decide) (by decide) value.toNat
  have hread := parse_mark_append (.hexadecimal (.inl rfl)) hspec.1 hspec.2 0
  rwa [List.replicate_zero, List.nil_append, String.ofList_append] at hread

end BootConfig.Numeral
