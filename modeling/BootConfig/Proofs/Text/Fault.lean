import BootConfig.Proofs.Text.Numeral

/-!
# Why a text is no numeral

What is read from a text follows from the base that its first characters announce and from what
stands behind them. If these are digits with a value in range, the numeral is read as that value.
If nothing stands there, this is what is wrong; otherwise the first position is that is no digit or
with which the value leaves the range. Zeros behind an announced base never do that.
-/

namespace BootConfig.Numeral

/-! ### The first fault -/

/-- What is wrong at a position of characters that stand behind digits of the given value: there is
no digit of the base, or one with which the value of all digits is out of range. -/
inductive IsFaultAt (base value : Nat) (cs : List Char) (i : Nat) : NumeralError → Prop where
  | invalidDigit {c : Char} (hc : cs[i]? = some c) (h : isDigitOf base c = false) :
      IsFaultAt base value cs i .invalidDigit
  | tooLarge {c : Char} (hc : cs[i]? = some c) (hdigit : isDigitOf base c = true)
      (h : bound ≤ (cs.take (i + 1)).foldl (shift base) value) :
      IsFaultAt base value cs i .tooLarge

/-- What is wrong at the first position at which something is wrong. -/
def IsFirstFault (base value : Nat) (cs : List Char) (e : NumeralError) : Prop :=
  ∃ i, IsFaultAt base value cs i e ∧ ∀ j < i, ∀ other, ¬IsFaultAt base value cs j other

variable {base value i : Nat} {c : Char} {cs : List Char} {e other : NumeralError}

/-- One thing is wrong at a position. -/
theorem IsFaultAt.unique (h : IsFaultAt base value cs i e)
    (h' : IsFaultAt base value cs i other) : e = other := by
  rcases h with ⟨hc, hnone⟩ | ⟨hc, hdigit, -⟩ <;> rcases h' with ⟨hc', hnone'⟩ | ⟨hc', hdigit', -⟩
  · rfl
  · cases hc.symm.trans hc'
    exact (ne_true_of_eq_false hnone hdigit').elim
  · cases hc.symm.trans hc'
    exact (ne_true_of_eq_false hnone' hdigit).elim
  · rfl

private theorem isFaultAt_succ_iff :
    IsFaultAt base value (c :: cs) (i + 1) e ↔ IsFaultAt base (shift base value c) cs i e := by
  constructor
  · rintro (⟨hc, h⟩ | ⟨hc, hdigit, h⟩)
    · exact .invalidDigit hc h
    · exact .tooLarge hc hdigit h
  · rintro (⟨hc, h⟩ | ⟨hc, hdigit, h⟩)
    · exact .invalidDigit hc h
    · exact .tooLarge hc hdigit h

private theorem isFirstFault_cons_of_isFaultAt (h : IsFaultAt base value (c :: cs) 0 other) :
    IsFirstFault base value (c :: cs) e ↔ other = e := by
  constructor
  · rintro ⟨i, hi, hbefore⟩
    rcases Nat.eq_zero_or_pos i with rfl | hpos
    · exact h.unique hi
    · exact (hbefore 0 hpos other h).elim
  · rintro rfl
    exact ⟨0, h, fun j hj ↦ absurd hj (Nat.not_lt_zero j)⟩

private theorem isFirstFault_cons (hdigit : isDigitOf base c = true)
    (hrange : shift base value c < bound) :
    IsFirstFault base value (c :: cs) e ↔ IsFirstFault base (shift base value c) cs e := by
  have hfine : ∀ other, ¬IsFaultAt base value (c :: cs) 0 other := by
    rintro _ (⟨hc, h⟩ | ⟨hc, -, h⟩)
    · cases hc
      exact ne_true_of_eq_false h hdigit
    · exact Nat.not_le_of_lt hrange h
  constructor
  · rintro ⟨_ | i, hi, hbefore⟩
    · exact (hfine e hi).elim
    · refine ⟨i, isFaultAt_succ_iff.mp hi, ?_⟩
      intro j hj other hother
      exact hbefore (j + 1) (Nat.succ_lt_succ hj) other (isFaultAt_succ_iff.mpr hother)
  · rintro ⟨i, hi, hbefore⟩
    refine ⟨i + 1, isFaultAt_succ_iff.mpr hi, ?_⟩
    rintro (_ | j) hj other hother
    · exact hfine other hother
    · exact hbefore j (Nat.lt_of_succ_lt_succ hj) other (isFaultAt_succ_iff.mp hother)

/-- Reading digits fails for what is wrong first. The induction is on the characters, and the value
is that of the digits read so far. -/
theorem readDigits_eq_error_iff (hmax : base ≤ 16) :
    readDigits base value (cs.map Char.toLower) = .error e ↔ IsFirstFault base value cs e := by
  induction cs generalizing value with
  | nil =>
    refine iff_of_false (fun h ↦ nomatch h) ?_
    rintro ⟨i, ⟨hc, -⟩ | ⟨hc, -⟩, -⟩ <;> cases hc
  | cons c cs ih =>
    rw [List.map_cons, readDigits_toLower_cons hmax]
    split
    · next hdigit =>
      split
      · next hrange => rw [ih, isFirstFault_cons hdigit hrange]
      · next hlarge =>
        rw [isFirstFault_cons_of_isFaultAt (.tooLarge rfl hdigit (Nat.le_of_not_lt hlarge)),
          Except.error.injEq]
    · next hnone =>
      rw [isFirstFault_cons_of_isFaultAt (.invalidDigit rfl (Bool.eq_false_iff.mpr hnone)),
        Except.error.injEq]

/-! ### What is read from a text -/

/-- What is read from the characters behind an announced base. -/
inductive Outcome (base : Nat) (rest : List Char) : Except NumeralError UInt64 → Prop where
  | value {value : UInt64} (h : AreDigits base (behindSign rest))
      (hvalue : valueOf base (behindSign rest) = value.toNat) : Outcome base rest (.ok value)
  | empty (h : rest = []) : Outcome base rest (.error .empty)
  | fault {e : NumeralError} (hne : rest ≠ []) (h : IsFirstFault base 0 (behindSign rest) e) :
      Outcome base rest (.error e)

/-- A magnitude fails for being empty, or for what is wrong first behind the sign. -/
theorem readMagnitude_eq_error_iff {rest : List Char} (hmax : base ≤ 16) :
    readMagnitude base (rest.map Char.toLower) = .error e ↔ Outcome base rest (.error e) := by
  rw [readMagnitude_toLower]
  split
  · next hnone =>
    rw [Except.error.injEq]
    constructor
    · rintro rfl
      exact .empty hnone
    · rintro (_ | _ | ⟨hne, -⟩)
      · rfl
      · exact (hne hnone).elim
  · next hsome =>
    rw [readDigits_eq_error_iff hmax]
    constructor
    · exact .fault hsome
    · rintro (_ | hnone | ⟨-, h⟩)
      · exact (hsome hnone).elim
      · exact h

variable {text : String} {rest : List Char}

private theorem parse_eq_iff_of_announces (h : Announces text.toList base rest)
    (result : Except NumeralError UInt64) : parse text = result ↔ Outcome base rest result := by
  obtain ⟨hmin, hmax⟩ := h.base_range
  cases result with
  | ok value =>
    rw [parse_eq_ok_iff_of_announces h, magnitude_iff]
    constructor
    · exact fun ⟨hdigits, hvalue⟩ ↦ .value hdigits hvalue
    · rintro ⟨hdigits, hvalue⟩
      exact ⟨hdigits, hvalue⟩
  | error e =>
    rw [parse_of_announces h, ← readMagnitude_eq_error_iff hmax]
    cases readMagnitude base (rest.map Char.toLower) <;> simp [Except.map]

/-! ### Zeros -/

/-- What announces a base if digits of the base are behind it. -/
inductive Mark : List Char → Nat → Prop where
  | hexadecimal {x : Char} (hx : x = 'x' ∨ x = 'X') : Mark ['0', x] 16
  | octal : Mark ['0'] 8

/-- Digits are read in the base that is announced in front of them. -/
theorem Mark.announces {mark digits : List Char} (h : Mark mark base)
    (hdigits : AreDigits base digits) : Announces (mark ++ digits) base digits := by
  cases h with
  | hexadecimal hx => exact .hexadecimal hx digits
  | octal =>
    obtain ⟨c, cs, rfl⟩ := List.exists_cons_of_ne_nil hdigits.ne_nil
    refine .octal ?_ cs
    rintro (rfl | rfl) <;> exact nomatch hdigits.isDigitOf _ List.mem_cons_self

private theorem AreDigits.zeros_append {digits : List Char} (h : AreDigits base digits)
    (hbase : 0 < base) (zeros : Nat) : AreDigits base (List.replicate zeros '0' ++ digits) := by
  refine ⟨by simp [h.ne_nil], ?_⟩
  intro c hc
  rcases List.mem_append.mp hc with hzero | hdigit
  · rw [List.eq_of_mem_replicate hzero]
    exact decide_eq_true hbase
  · exact h.isDigitOf c hdigit

private theorem readDigits_zeros_append (hmin : 1 ≤ base) (hmax : base ≤ 16) (zeros : Nat)
    (digits : List Char) :
    readDigits base 0 ((List.replicate zeros '0' ++ digits).map Char.toLower) =
      readDigits base 0 (digits.map Char.toLower) := by
  have hzero : isDigitOf base '0' = true := decide_eq_true hmin
  have hnothing : shift base 0 '0' = 0 := by rw [shift, Nat.zero_mul]; rfl
  induction zeros with
  | zero => rfl
  | succ zeros ih =>
    rw [List.replicate_succ, List.cons_append, List.map_cons, readDigits_toLower_cons hmax,
      if_pos hzero, hnothing, if_pos (by decide), ih]

/-- Zeros between an announced base and digits do not count. -/
theorem parse_zeros_append {mark digits : List Char} (hmark : Mark mark base)
    (hdigits : AreDigits base digits) (zeros : Nat) :
    parse (String.ofList (mark ++ (List.replicate zeros '0' ++ digits))) =
      parse (String.ofList (mark ++ digits)) := by
  have hplain := hmark.announces hdigits
  obtain ⟨hmin, hmax⟩ := hplain.base_range
  have hpadded := hdigits.zeros_append hmin zeros
  rw [← String.toList_ofList (l := mark ++ digits)] at hplain
  have hannounced := hmark.announces hpadded
  rw [← String.toList_ofList (l := mark ++ _)] at hannounced
  rw [parse_of_announces hannounced, parse_of_announces hplain, readMagnitude_toLower,
    readMagnitude_toLower, if_neg hpadded.ne_nil, if_neg hdigits.ne_nil, hpadded.behindSign_eq,
    hdigits.behindSign_eq, readDigits_zeros_append hmin hmax]

/-- What is read from a text is decided by the base that its first characters announce and by what
stands behind them: digits are read as their value, if that is in range; nothing is refused as
empty; and anything else for what is wrong first. Any number of zeros may stand between an announced
base and the digits. -/
theorem parse_eq_iff_outcome :
    (∀ text result, parse text = result ↔
      ∃ base rest, Announces text.toList base rest ∧ Outcome base rest result) ∧
    ∀ mark base digits zeros, Mark mark base → AreDigits base digits →
      parse (String.ofList (mark ++ (List.replicate zeros '0' ++ digits))) =
        parse (String.ofList (mark ++ digits)) := by
  constructor
  · intro text result
    obtain ⟨base, rest, h⟩ := exists_announces text.toList
    constructor
    · exact fun hparse ↦ ⟨base, rest, h, (parse_eq_iff_of_announces h result).mp hparse⟩
    · rintro ⟨base, rest, h, houtcome⟩
      exact (parse_eq_iff_of_announces h result).mpr houtcome
  · exact fun mark base digits zeros hmark hdigits ↦ parse_zeros_append hmark hdigits zeros

/-- The largest number is read behind any zeros. One more is out of range with its last digit,
before the letter behind it counts, and a sign alone is no digit. -/
theorem parse_eq_iff_outcome_sample :
    Mark ['0', 'X'] 16 ∧ AreDigits 16 "fFfFfFfFfFfFfFfF".toList ∧
      parse "0X000fFfFfFfFfFfFfFfF" = .ok 0xffffffffffffffff ∧
      parse "18446744073709551616g" = .error .tooLarge ∧
      (∃ base rest, Announces "18446744073709551616g".toList base rest ∧
        Outcome base rest (.error .tooLarge)) ∧
      parse "0x+" = .error .invalidDigit := by
  have hdigits : AreDigits 16 "fFfFfFfFfFfFfFfF".toList :=
    ⟨by decide, List.all_eq_true.mp (by decide)⟩
  have hzeros := parse_eq_iff_outcome.2 _ _ _ 3 (.hexadecimal (.inr rfl)) hdigits
  have hlarge : parse "18446744073709551616g" = .error .tooLarge := by rfl
  have hsign : Outcome 16 ['+'] (.error .invalidDigit) :=
    .fault (by decide) ⟨0, .invalidDigit rfl rfl, nofun⟩
  refine ⟨.hexadecimal (.inr rfl), hdigits, hzeros.trans rfl, hlarge,
    (parse_eq_iff_outcome.1 _ _).mp hlarge,
    (parse_eq_iff_outcome.1 _ _).mpr ⟨16, ['+'], .hexadecimal (.inl rfl) _, hsign⟩⟩

end BootConfig.Numeral
