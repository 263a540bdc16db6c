import BootConfig.Text.Numeral

/-!
# What a numeral is

The value of digits is found from left to right, each digit counting once and what stands before it
as often as the base says. A numeral is read to the value of its digits, which stand behind the
characters that announce the base and a plus sign, if there is one.
-/

namespace BootConfig.Numeral

/-! ### Digits -/

/-- The value of a character as a digit of a base up to sixteen. Letters count in either case. -/
def digitValue? (c : Char) : Option Nat :=
  if '0'.toNat ≤ c.toNat ∧ c.toNat ≤ '9'.toNat then some (c.toNat - '0'.toNat)
  else if 'a'.toNat ≤ c.toNat ∧ c.toNat ≤ 'f'.toNat then some (c.toNat - 'a'.toNat + 10)
  else if 'A'.toNat ≤ c.toNat ∧ c.toNat ≤ 'F'.toNat then some (c.toNat - 'A'.toNat + 10)
  else none

/-- Is the character a digit of the base? -/
def isDigitOf (base : Nat) (c : Char) : Bool :=
  (digitValue? c).any (· < base)

/-- The value of digits of the given value with one more behind them. -/
def shift (base value : Nat) (c : Char) : Nat :=
  value * base + (digitValue? c).getD 0

/-- The value of digits. -/
def valueOf (base : Nat) (cs : List Char) : Nat :=
  cs.foldl (shift base) 0

/-- Characters that are digits of the base, at least one of them. -/
structure AreDigits (base : Nat) (cs : List Char) : Prop where
  ne_nil : cs ≠ []
  isDigitOf : ∀ c ∈ cs, isDigitOf base c = true

example : valueOf 16 "7c0F".toList = 0x7c0f := by decide

/-- Upper-case letters are 32 places before their lower-case ones, and nothing else changes. -/
theorem toNat_toLower (c : Char) :
    c.toLower.toNat = if 65 ≤ c.toNat ∧ c.toNat ≤ 90 then c.toNat + 32 else c.toNat := by
  have hupper : (c.val ≥ 'A'.val ∧ c.val ≤ 'Z'.val) ↔ 65 ≤ c.toNat ∧ c.toNat ≤ 90 := by
    simp [UInt32.le_iff_toNat_le]
  split
  · next h =>
    have hlower : c.toLower.val = c.val + 32 := congrArg Char.val (dif_pos (hupper.mpr h))
    rw [← Char.toNat_val, hlower, UInt32.toNat_add, Char.toNat_val]
    exact Nat.mod_eq_of_lt (show c.toNat + 32 < 4294967296 by omega)
  · next h =>
    have hsame : c.toLower = c := dif_neg (mt hupper.mp h)
    rw [hsame]

private theorem digit?_toLower {base : Nat} (hbase : base ≤ 16) (c : Char) :
    digit? base c.toLower = if isDigitOf base c then some ((digitValue? c).getD 0) else none := by
  have hdigit : c.toLower.isDigit = true ↔ 48 ≤ c.toLower.toNat ∧ c.toLower.toNat ≤ 57 := by
    simp [Char.isDigit, UInt32.le_iff_toNat_le]
  have hlower : c.toLower.isLower = true ↔ 97 ≤ c.toLower.toNat ∧ c.toLower.toNat ≤ 122 := by
    change (decide (97 ≤ c.toLower.val) && decide (c.toLower.val ≤ 122)) = true ↔ _
    simp [UInt32.le_iff_toNat_le]
  have hcase := toNat_toLower c
  simp only [digit?, isDigitOf, digitValue?, hdigit, hlower, hcase, Char.reduceToNat]
  -- The character is an upper-case letter or not, and a digit, one of the six letters, or neither.
  grind

/-- A plus sign is no digit. -/
theorem isDigitOf_plus (base : Nat) : isDigitOf base '+' = false :=
  rfl

private theorem le_shift {base : Nat} (hbase : 1 ≤ base) (value : Nat) (c : Char) :
    value ≤ shift base value c := by
  rw [shift]
  exact Nat.le_add_right_of_le (Nat.le_mul_of_pos_right value hbase)

/-- Digits behind others add to their value. -/
theorem le_foldl_shift {base : Nat} (hbase : 1 ≤ base) (value : Nat) (cs : List Char) :
    value ≤ cs.foldl (shift base) value := by
  induction cs generalizing value with
  | nil => exact Nat.le_refl _
  | cons c cs ih => exact Nat.le_trans (le_shift hbase value c) (ih (shift base value c))

/-- A character is read if it is a digit of the base and the value with it is in range. -/
theorem readDigits_toLower_cons {base : Nat} (hmax : base ≤ 16) (value : Nat) (c : Char)
    (cs : List Char) :
    readDigits base value (c.toLower :: cs) =
      if isDigitOf base c = true then
        if shift base value c < bound then readDigits base (shift base value c) cs
        else .error .tooLarge
      else .error .invalidDigit := by
  rw [readDigits, digit?_toLower hmax]
  cases isDigitOf base c <;> rfl

/-- Characters are read behind digits of the given value exactly if all of them are digits and the
value of all digits is in range; then it was in range all the way. -/
theorem readDigits_eq_ok_iff {base value result : Nat} {cs : List Char} (hmin : 1 ≤ base)
    (hmax : base ≤ 16) (hvalue : value < bound) :
    readDigits base value (cs.map Char.toLower) = .ok result ↔
      (∀ c ∈ cs, isDigitOf base c = true) ∧ cs.foldl (shift base) value = result ∧
        result < bound := by
  induction cs generalizing value with
  | nil =>
    rw [List.map_nil, readDigits, Except.ok.injEq, List.foldl_nil]
    constructor
    · rintro rfl
      exact ⟨List.forall_mem_nil _, rfl, hvalue⟩
    · exact fun h ↦ h.2.1
  | cons c cs ih =>
    rw [List.map_cons, readDigits_toLower_cons hmax, List.forall_mem_cons, List.foldl_cons]
    split
    · next hdigit =>
      split
      · next hnext => rw [ih hnext, and_iff_right hdigit]
      · next hlarge =>
        have hgrow := le_foldl_shift hmin (shift base value c) cs
        simp only [reduceCtorEq, false_iff, not_and]
        omega
    · next hother => simp [hother]

private theorem toLower_eq_iff {c d : Char} (hd : d.toNat < 'A'.toNat) : c.toLower = d ↔ c = d := by
  rw [← Char.toNat_inj, ← Char.toNat_inj, toNat_toLower]
  change d.toNat < 65 at hd
  split <;> omega

/-! ### Magnitudes -/

/-- Digits behind a plus sign that may be left out. -/
inductive Magnitude (base : Nat) : List Char → Nat → Prop where
  | unsigned {digits : List Char} (h : AreDigits base digits) :
      Magnitude base digits (valueOf base digits)
  | plus {digits : List Char} (h : AreDigits base digits) :
      Magnitude base ('+' :: digits) (valueOf base digits)

/-- What stands behind a plus sign in front. It has to be a sign of something. -/
def behindSign : List Char → List Char
  | '+' :: c :: cs => c :: cs
  | cs => cs

private theorem behindSign_cons {c : Char} (cs : List Char) (hc : c ≠ '+') :
    behindSign (c :: cs) = c :: cs := by
  rw [behindSign]
  intro d ds h
  exact hc (List.cons.inj h).1

private theorem behindSign_eq_nil_iff {cs : List Char} : behindSign cs = [] ↔ cs = [] := by
  unfold behindSign
  split <;> simp

/-- Digits have no sign in front. -/
theorem AreDigits.behindSign_eq {base : Nat} {digits : List Char} (h : AreDigits base digits) :
    behindSign digits = digits := by
  obtain ⟨c, cs, rfl⟩ := List.exists_cons_of_ne_nil h.ne_nil
  apply behindSign_cons
  rintro rfl
  exact ne_true_of_eq_false (isDigitOf_plus base) (h.isDigitOf '+' List.mem_cons_self)

/-- A magnitude is what stands behind the sign, if these are digits. -/
theorem magnitude_iff {base n : Nat} {cs : List Char} :
    Magnitude base cs n ↔ AreDigits base (behindSign cs) ∧ valueOf base (behindSign cs) = n := by
  constructor
  · rintro (h | h)
    · rw [h.behindSign_eq]
      exact ⟨h, rfl⟩
    · obtain ⟨c, ds, rfl⟩ := List.exists_cons_of_ne_nil h.ne_nil
      exact ⟨h, rfl⟩
  · rintro ⟨h, rfl⟩
    unfold behindSign at h ⊢
    split at h
    · exact .plus h
    · exact .unsigned h

private theorem readMagnitude_cons {base : Nat} {c : Char} (cs : List Char) (hc : c ≠ '+') :
    readMagnitude base (c :: cs) = readDigits base 0 (c :: cs) := by
  rw [readMagnitude]
  · exact List.cons_ne_nil c cs
  · intro d ds h
    exact hc (List.cons.inj h).1

/-- A magnitude is read from the digits behind the sign, unless there is nothing at all. -/
theorem readMagnitude_toLower (base : Nat) (cs : List Char) :
    readMagnitude base (cs.map Char.toLower) =
      if cs = [] then .error .empty
      else readDigits base 0 ((behindSign cs).map Char.toLower) := by
  cases cs with
  | nil => rfl
  | cons c cs =>
    rw [if_neg (List.cons_ne_nil c cs)]
    by_cases hc : c = '+'
    · subst hc
      cases cs <;> rfl
    · rw [behindSign_cons cs hc, List.map_cons,
        readMagnitude_cons _ (mt (toLower_eq_iff (by decide)).mp hc)]

/-- A magnitude is read as its value, if that is in range. -/
theorem readMagnitude_eq_ok_iff {base result : Nat} {cs : List Char} (hmin : 1 ≤ base)
    (hmax : base ≤ 16) :
    readMagnitude base (cs.map Char.toLower) = .ok result ↔
      Magnitude base cs result ∧ result < bound := by
  rw [readMagnitude_toLower, magnitude_iff, and_assoc]
  split
  · next hnone =>
    rw [behindSign_eq_nil_iff.mpr hnone]
    refine iff_of_false (fun h ↦ nomatch h) ?_
    rintro ⟨h, -⟩
    exact h.ne_nil rfl
  · next hsome =>
    rw [readDigits_eq_ok_iff hmin hmax (by decide)]
    have hdigits := mt behindSign_eq_nil_iff.mp hsome
    exact and_congr_left fun _ ↦ ⟨fun h ↦ ⟨hdigits, h⟩, fun h ↦ h.isDigitOf⟩

/-! ### Numerals -/

/-- The first characters of a text announce a base, and the others are the magnitude. -/
inductive Announces : List Char → Nat → List Char → Prop where
  | hexadecimal {x : Char} (hx : x = 'x' ∨ x = 'X') (cs : List Char) :
      Announces ('0' :: x :: cs) 16 cs
  | octal {c : Char} (hc : ¬(c = 'x' ∨ c = 'X')) (cs : List Char) :
      Announces ('0' :: c :: cs) 8 (c :: cs)
  | zero : Announces ['0'] 10 ['0']
  | empty : Announces [] 10 []
  | decimal {c : Char} (hc : c ≠ '0') (cs : List Char) : Announces (c :: cs) 10 (c :: cs)

private theorem toLower_eq_x_iff (c : Char) : c.toLower = 'x' ↔ c = 'x' ∨ c = 'X' := by
  simp only [← Char.toNat_inj, toNat_toLower, Char.reduceToNat]
  split <;> omega

/-- Every text announces a base. -/
theorem exists_announces (cs : List Char) : ∃ base rest, Announces cs base rest := by
  cases cs with
  | nil => exact ⟨_, _, .empty⟩
  | cons c cs =>
    by_cases hc : c = '0'
    · subst hc
      cases cs with
      | nil => exact ⟨_, _, .zero⟩
      | cons d cs =>
        by_cases hd : d = 'x' ∨ d = 'X'
        · exact ⟨_, _, .hexadecimal hd cs⟩
        · exact ⟨_, _, .octal hd cs⟩
    · exact ⟨_, _, .decimal hc cs⟩

namespace Announces

variable {cs rest : List Char} {base : Nat}

/-- No base has more digits than there are characters for them. -/
theorem base_range (h : Announces cs base rest) : 1 ≤ base ∧ base ≤ 16 := by
  cases h <;> decide

private theorem splitRadix_toLower (h : Announces cs base rest) :
    splitRadix (cs.map Char.toLower) = (base, rest.map Char.toLower) := by
  cases h with
  | hexadecimal hx cs => simp [splitRadix, (toLower_eq_x_iff _).mpr hx]
  | octal hc cs =>
    have hx := mt (toLower_eq_x_iff _).mp hc
    simp [splitRadix]
  | zero => rfl
  | empty => rfl
  | decimal hc cs =>
    have h0 := mt (toLower_eq_iff (d := '0') (by decide)).mp hc
    simp [splitRadix, h0]

end Announces

/-- What stands behind the announced base is read as a magnitude. -/
theorem parse_of_announces {text : String} {base : Nat} {rest : List Char}
    (h : Announces text.toList base rest) :
    parse text = (readMagnitude base (rest.map Char.toLower)).map UInt64.ofNat := by
  rw [parse, h.splitRadix_toLower]

/-- A text whose first characters announce a base is a numeral exactly if what stands behind them is
a magnitude in range. -/
theorem parse_eq_ok_iff_of_announces {text : String} {base : Nat} {rest : List Char}
    (h : Announces text.toList base rest) {value : UInt64} :
    parse text = .ok value ↔ Magnitude base rest value.toNat := by
  obtain ⟨hmin, hmax⟩ := h.base_range
  rw [parse_of_announces h]
  constructor
  · intro hparse
    cases hread : readMagnitude base (rest.map Char.toLower) with
    | error e =>
      rw [hread] at hparse
      exact nomatch hparse
    | ok n =>
      rw [hread, Except.map, Except.ok.injEq] at hparse
      obtain ⟨hn, hrange⟩ := (readMagnitude_eq_ok_iff hmin hmax).mp hread
      rwa [← hparse, UInt64.toNat_ofNat_of_lt' hrange]
  · intro hn
    rw [(readMagnitude_eq_ok_iff hmin hmax).mpr ⟨hn, value.toNat_lt_size⟩, Except.map,
      UInt64.ofNat_toNat]

/-- A text is a numeral exactly if what stands behind the announced base is a magnitude in range. -/
theorem parse_eq_ok_iff {text : String} {value : UInt64} :
    parse text = .ok value ↔
      ∃ base rest, Announces text.toList base rest ∧ Magnitude base rest value.toNat := by
  obtain ⟨base, rest, h⟩ := exists_announces text.toList
  constructor
  · exact fun hparse ↦ ⟨base, rest, h, (parse_eq_ok_iff_of_announces h).mp hparse⟩
  · rintro ⟨base, rest, h, hn⟩
    exact (parse_eq_ok_iff_of_announces h).mpr hn

end BootConfig.Numeral
