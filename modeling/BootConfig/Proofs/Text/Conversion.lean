import Mathlib.Data.List.TakeWhile
import BootConfig.Proofs.Text.Numeral

/-!
# Numerals and conversions

What C's `strtoull` makes of a text when the base is left to it, and which numerals it takes for the
number they are read as. A conversion never fails: it stops at the first character that does not
belong to the number and says what is left. A sign stands in front of all else there, the base
included, while a numeral has its sign behind the announced base. So both agree on every numeral
without a sign, and on one with a sign exactly if the sign is in front and no octal number of eight
or more follows it.
-/

namespace BootConfig.Numeral

/-! ### Conversions -/

/-- What a text is converted to, and the characters that are left. -/
structure Conversion where
  value : Nat
  rest : List Char
  deriving DecidableEq, Repr

/-- White space: a blank, or one of the control characters from tab to carriage return. -/
def isSpace (c : Char) : Bool :=
  c == ' ' || 9 ≤ c.toNat && c.toNat ≤ 13

/-- Is there a minus sign, and what stands behind the sign. -/
def takeSign : List Char → Bool × List Char
  | '-' :: cs => (true, cs)
  | '+' :: cs => (false, cs)
  | cs => (false, cs)

/-- Is there a hexadecimal prefix with a digit behind it? Without a digit, it is no prefix. -/
def startsHex : List Char → Bool
  | '0' :: x :: c :: _ => (x == 'x' || x == 'X') && isDigitOf 16 c
  | _ => false

/-- The base of a number and where its digits start. The zero that says octal is a digit too. -/
def detectBase (cs : List Char) : Nat × List Char :=
  if startsHex cs then (16, cs.drop 2)
  else if cs.head? = some '0' then (8, cs)
  else (10, cs)

/-- The value as an unsigned number of 64 bits. Too large ones become the largest. -/
def represent (negative : Bool) (value : Nat) : Nat :=
  if bound ≤ value then bound - 1
  else if negative then (bound - value) % bound
  else value

/-- Converts the digits in front of others, if there are any. -/
def convert (cs : List Char) : Conversion :=
  let (negative, body) := takeSign (cs.dropWhile isSpace)
  let (base, body) := detectBase body
  let digits := body.takeWhile (isDigitOf base)
  if digits = [] then ⟨0, cs⟩
  else ⟨represent negative (valueOf base digits), body.dropWhile (isDigitOf base)⟩

example : convert " -0x1g".toList = ⟨bound - 1, ['g']⟩ := by decide
example : convert "09".toList = ⟨0, ['9']⟩ := by decide

/-! ### Numbers that are converted as a whole -/

/-- A number without a sign. -/
inductive Unsigned : List Char → Nat → Prop where
  | hexadecimal {x : Char} {digits : List Char} (hx : x = 'x' ∨ x = 'X')
      (h : AreDigits 16 digits) : Unsigned ('0' :: x :: digits) (valueOf 16 digits)
  | octal {digits : List Char} (h : ∀ c ∈ digits, isDigitOf 8 c = true) :
      Unsigned ('0' :: digits) (valueOf 8 digits)
  | decimal {c : Char} {digits : List Char} (hc : c ≠ '0') (h : AreDigits 10 (c :: digits)) :
      Unsigned (c :: digits) (valueOf 10 (c :: digits))

/-- A number, in front of which a plus sign may stand. -/
inductive Denotes : List Char → Nat → Prop where
  | unsigned {cs : List Char} {n : Nat} (h : Unsigned cs n) : Denotes cs n
  | plus {cs : List Char} {n : Nat} (h : Unsigned cs n) : Denotes ('+' :: cs) n

private theorem isDigitOf_of_eq_x {base : Nat} {x : Char} (hx : x = 'x' ∨ x = 'X') :
    isDigitOf base x = false := by
  rcases hx with rfl | rfl <;> rfl

private theorem startsHex_iff {cs : List Char} :
    startsHex cs = true ↔
      ∃ x c rest, cs = '0' :: x :: c :: rest ∧ (x = 'x' ∨ x = 'X') ∧ isDigitOf 16 c = true := by
  constructor
  · intro h
    match cs with
    | [] | [_] | [_, _] => simp [startsHex] at h
    | z :: x :: c :: rest =>
      by_cases hz : z = '0'
      · subst hz
        exact ⟨x, c, rest, rfl, by simpa [startsHex] using h⟩
      · simp [startsHex, hz] at h
  · rintro ⟨x, c, rest, rfl, hx, hc⟩
    simpa [startsHex, hc] using hx

private theorem unsigned_iff {cs : List Char} {n : Nat} :
    Unsigned cs n ↔
      AreDigits (detectBase cs).1 (detectBase cs).2 ∧
        valueOf (detectBase cs).1 (detectBase cs).2 = n := by
  rw [detectBase]
  split
  · next hhex =>
    obtain ⟨x, c, rest, rfl, hx, hc⟩ := startsHex_iff.mp hhex
    constructor
    · rintro (⟨-, h⟩ | ⟨h⟩ | ⟨h0, -⟩)
      · exact ⟨h, rfl⟩
      · exact (ne_true_of_eq_false (isDigitOf_of_eq_x hx) (h x List.mem_cons_self)).elim
      · exact (h0 rfl).elim
    · rintro ⟨h, rfl⟩
      exact .hexadecimal hx h
  · next hhex =>
    split
    · next hzero =>
      obtain ⟨rest, rfl⟩ := List.head?_eq_some_iff.mp hzero
      have hvalue : valueOf 8 ('0' :: rest) = valueOf 8 rest := rfl
      rw [hvalue]
      constructor
      · rintro (⟨hx, h⟩ | ⟨h⟩ | ⟨h0, -⟩)
        · next x digits =>
          refine (hhex ?_).elim
          obtain ⟨c, ds, rfl⟩ := List.exists_cons_of_ne_nil h.ne_nil
          exact startsHex_iff.mpr ⟨x, c, ds, rfl, hx, h.isDigitOf c List.mem_cons_self⟩
        · exact ⟨⟨List.cons_ne_nil _ _, List.forall_mem_cons.mpr ⟨rfl, h⟩⟩, rfl⟩
        · exact (h0 rfl).elim
      · rintro ⟨h, rfl⟩
        exact .octal (List.forall_mem_cons.mp h.isDigitOf).2
    · next hzero =>
      constructor
      · rintro (_ | _ | ⟨-, h⟩)
        · exact (hzero rfl).elim
        · exact (hzero rfl).elim
        · exact ⟨h, rfl⟩
      · rintro ⟨h, rfl⟩
        obtain ⟨c, rest, rfl⟩ := List.exists_cons_of_ne_nil h.ne_nil
        exact .decimal (fun hc ↦ hzero (by rw [hc]; rfl)) h

private theorem isDigitOf_of_isSpace {base : Nat} {c : Char} (h : isSpace c = true) :
    isDigitOf base c = false := by
  have hcode : c.toNat < '0'.toNat := by
    simp only [isSpace, Bool.or_eq_true, beq_iff_eq, Bool.and_eq_true, decide_eq_true_eq] at h
    rcases h with rfl | h
    · decide
    · exact Nat.lt_of_le_of_lt h.2 (by decide)
  have hnone : digitValue? c = none := by
    simp only [digitValue?, Char.reduceToNat] at hcode ⊢
    rw [if_neg (by omega), if_neg (by omega), if_neg (by omega)]
  rw [isDigitOf, hnone]
  rfl

private theorem plus_notMem {base : Nat} {cs : List Char} (h : ∀ c ∈ cs, isDigitOf base c = true) :
    '+' ∉ cs := by
  intro hmem
  exact ne_true_of_eq_false (isDigitOf_plus base) (h '+' hmem)

namespace Unsigned

variable {cs : List Char} {m n : Nat}

private theorem plus_notMem (h : Unsigned cs n) : '+' ∉ cs := by
  rcases h with ⟨hx, h⟩ | ⟨h⟩ | ⟨-, h⟩
  · have hsign := Numeral.plus_notMem h.isDigitOf
    rcases hx with rfl | rfl <;> simpa using hsign
  · simpa using Numeral.plus_notMem h
  · exact Numeral.plus_notMem h.isDigitOf

/-- A number has one value. -/
theorem unique (h : Unsigned cs m) (h' : Unsigned cs n) : m = n :=
  (unsigned_iff.mp h).2.symm.trans (unsigned_iff.mp h').2

private theorem zero_iff (hcs : ∀ c ∈ cs, isDigitOf 10 c = true) :
    Unsigned ('0' :: cs) n ↔ (∀ c ∈ cs, isDigitOf 8 c = true) ∧ valueOf 8 cs = n := by
  constructor
  · rintro (⟨hx, -⟩ | ⟨h⟩ | ⟨h0, -⟩)
    · have hdigit := (List.forall_mem_cons.mp hcs).1
      exact (ne_true_of_eq_false (isDigitOf_of_eq_x hx) hdigit).elim
    · exact ⟨h, rfl⟩
    · exact (h0 rfl).elim
  · rintro ⟨h, rfl⟩
    exact .octal h

private theorem exists_cons (h : Unsigned cs n) :
    ∃ c rest, cs = c :: rest ∧ isSpace c = false ∧ c ≠ '-' := by
  rcases h with _ | _ | @⟨c, digits, -, h⟩
  · exact ⟨_, _, rfl, by decide⟩
  · exact ⟨_, _, rfl, by decide⟩
  · refine ⟨c, digits, rfl, ?_⟩
    have hdigit := h.isDigitOf c List.mem_cons_self
    constructor
    · by_contra hspace
      exact ne_true_of_eq_false (isDigitOf_of_isSpace (eq_true_of_ne_false hspace)) hdigit
    · rintro rfl
      exact nomatch hdigit

end Unsigned

private theorem denotes_iff {c : Char} {cs : List Char} {n : Nat} (hc : c ≠ '-') :
    Denotes (c :: cs) n ↔ Unsigned (takeSign (c :: cs)).2 n := by
  by_cases hplus : c = '+'
  · subst hplus
    constructor
    · rintro (h | h)
      · exact (h.plus_notMem List.mem_cons_self).elim
      · exact h
    · exact .plus
  · have htake : takeSign (c :: cs) = (false, c :: cs) := by simp [takeSign, hc, hplus]
    rw [htake]
    constructor
    · rintro (h | h)
      · exact h
      · exact (hplus rfl).elim
    · exact .unsigned

/-- A text that starts with neither white space nor a minus sign is converted as a whole if it
denotes a number. The largest value stands for all that are larger. -/
theorem convert_eq_iff {c : Char} {cs : List Char} {n : Nat} (hspace : isSpace c = false)
    (hc : c ≠ '-') :
    convert (c :: cs) = ⟨n, []⟩ ↔ ∃ m, Denotes (c :: cs) m ∧ min m (bound - 1) = n := by
  have hsign : (takeSign (c :: cs)).1 = false := by
    by_cases hplus : c = '+'
    · subst hplus
      rfl
    · simp [takeSign, hc, hplus]
  have hrepresent (m : Nat) : represent false m = min m (bound - 1) := by
    have hbound : 0 < bound := by decide
    simp only [represent, Bool.false_eq_true, if_false]
    split <;> omega
  simp only [denotes_iff hc, unsigned_iff]
  simp only [convert, List.dropWhile_cons, hspace, Bool.false_eq_true, if_false, hsign, hrepresent]
  generalize detectBase (takeSign (c :: cs)).2 = found
  obtain ⟨base, body⟩ := found
  split
  · next hnone =>
    -- Nothing is converted, so the text itself is left, and it is not empty.
    constructor
    · exact fun h ↦ nomatch congrArg Conversion.rest h
    · rintro ⟨m, ⟨h, -⟩, -⟩
      rw [List.takeWhile_eq_self_iff.mpr h.isDigitOf] at hnone
      exact (h.ne_nil hnone).elim
  · next hsome =>
    rw [Conversion.mk.injEq, List.dropWhile_eq_nil_iff]
    constructor
    · rintro ⟨hvalue, hall⟩
      rw [List.takeWhile_eq_self_iff.mpr hall] at hvalue hsome
      exact ⟨_, ⟨⟨hsome, hall⟩, rfl⟩, hvalue⟩
    · rintro ⟨m, ⟨h, rfl⟩, hvalue⟩
      rw [List.takeWhile_eq_self_iff.mpr h.isDigitOf]
      exact ⟨hvalue, h.isDigitOf⟩

/-! ### The same digits in two bases -/

private theorem foldl_shift_gap {base base' value value' gap : Nat} (hbase : base ≤ base')
    (hpos : 1 ≤ base') (hvalue : value + gap ≤ value') (cs : List Char) :
    cs.foldl (shift base) value + gap ≤ cs.foldl (shift base') value' := by
  induction cs generalizing value value' with
  | nil => exact hvalue
  | cons c cs ih =>
    refine ih ?_
    have hscaled : value * base + gap ≤ value' * base' :=
      calc value * base + gap
          ≤ value * base' + gap * base' :=
            Nat.add_le_add (Nat.mul_le_mul_left value hbase) (Nat.le_mul_of_pos_right gap hpos)
        _ = (value + gap) * base' := (Nat.add_mul value gap base').symm
        _ ≤ value' * base' := Nat.mul_le_mul_right base' hvalue
    simp only [shift]
    omega

private theorem valueOf_eight_le_ten (cs : List Char) : valueOf 8 cs ≤ valueOf 10 cs :=
  foldl_shift_gap (by decide) (by decide) (Nat.le_refl (0 + 0)) cs

private theorem isDigitOf_iff_of_isDigitOf {base base' : Nat} {c : Char}
    (h : isDigitOf base c = true) :
    isDigitOf base' c = true ↔ (digitValue? c).getD 0 < base' := by
  rw [isDigitOf] at h ⊢
  cases hvalue : digitValue? c with
  | none => simp [hvalue] at h
  | some d => simp

private theorem octal_eq_decimal_iff {value : Nat} {cs : List Char} (hvalue : value < 8)
    (hcs : ∀ c ∈ cs, isDigitOf 10 c = true) :
    ((∀ c ∈ cs, isDigitOf 8 c = true) ∧
        cs.foldl (shift 8) value = cs.foldl (shift 10) value) ↔
      cs.foldl (shift 10) value < 8 := by
  induction cs generalizing value with
  | nil => simpa using hvalue
  | cons c cs ih =>
    rw [List.forall_mem_cons] at hcs ⊢
    rw [isDigitOf_iff_of_isDigitOf hcs.1, List.foldl_cons, List.foldl_cons]
    have hgrow := le_foldl_shift (show 1 ≤ 10 by decide) (shift 10 value c) cs
    have hten : shift 10 value c = value * 10 + (digitValue? c).getD 0 := rfl
    have height : shift 8 value c = value * 8 + (digitValue? c).getD 0 := rfl
    rcases Nat.eq_zero_or_pos value with rfl | hpos
    · by_cases hdigit : (digitValue? c).getD 0 < 8
      · -- Zeros in front do not count in any base.
        have hsame : shift 8 0 c = shift 10 0 c := by omega
        rw [hsame, and_iff_right hdigit]
        exact ih (by omega) hcs.2
      · constructor
        · exact fun h ↦ (hdigit h.1.1).elim
        · omega
    · -- Behind the first digit that counts, the bases differ by twice its value.
      have hless := foldl_shift_gap (show 8 ≤ 10 by decide) (by decide)
        (show shift 8 value c + 1 ≤ shift 10 value c by omega) cs
      constructor
      · exact fun h ↦ (Nat.ne_of_lt hless h.2).elim
      · omega

/-! ### Numerals that are converted to what they are read as -/

private theorem Denotes.plus_notMem_tail {cs : List Char} {n : Nat} (h : Denotes cs n) :
    '+' ∉ cs.tail := by
  rcases h with h | h
  · exact mt List.mem_of_mem_tail h.plus_notMem
  · exact h.plus_notMem

private theorem shape_of_parse {text : String} {value : UInt64} (h : parse text = .ok value) :
    Unsigned text.toList value.toNat ∨
      (∃ digits, text.toList = '+' :: digits ∧ AreDigits 10 digits ∧
        valueOf 10 digits = value.toNat) ∨
      ∃ rest, text.toList = '0' :: rest ∧ '+' ∈ rest := by
  obtain ⟨base, rest, hbase, hmagnitude⟩ := parse_eq_ok_iff.mp h
  generalize text.toList = cs at hbase ⊢
  generalize value.toNat = n at hmagnitude ⊢
  cases hbase with
  | hexadecimal hx cs =>
    rcases hmagnitude with h | h
    · exact .inl (.hexadecimal hx h)
    · exact .inr (.inr ⟨_, rfl, by simp⟩)
  | octal hc cs =>
    rcases hmagnitude with h | h
    · exact .inl (.octal h.isDigitOf)
    · exact .inr (.inr ⟨_, rfl, by simp⟩)
  | zero =>
    rcases hmagnitude with h | h
    exact .inl (.octal (List.forall_mem_nil _))
  | empty =>
    rcases hmagnitude with h | h
    exact (h.ne_nil rfl).elim
  | decimal hc cs =>
    rcases hmagnitude with h | h
    · exact .inl (.decimal hc h)
    · exact .inr (.inl ⟨_, rfl, h, rfl⟩)

private theorem Unsigned.le_valueOf_ten {cs : List Char} {n : Nat} (h : Unsigned cs n)
    (hcs : ∀ c ∈ cs, isDigitOf 10 c = true) : n ≤ valueOf 10 cs := by
  rcases h with ⟨hx, -⟩ | @⟨digits, -⟩ | _
  · have hdigit := hcs _ (List.mem_cons_of_mem _ List.mem_cons_self)
    exact (ne_true_of_eq_false (isDigitOf_of_eq_x hx) hdigit).elim
  · exact valueOf_eight_le_ten digits
  · exact Nat.le_refl _

private theorem denotes_plus_iff {digits : List Char} (h : AreDigits 10 digits) :
    Denotes ('+' :: digits) (valueOf 10 digits) ↔
      ∀ rest, digits = '0' :: rest → valueOf 10 digits < 8 := by
  obtain ⟨c, cs, rfl⟩ := List.exists_cons_of_ne_nil h.ne_nil
  have hbehind : Denotes ('+' :: c :: cs) (valueOf 10 (c :: cs)) ↔ Unsigned (c :: cs) _ :=
    denotes_iff (by decide)
  rw [hbehind]
  by_cases hc : c = '0'
  · subst hc
    have hcs := (List.forall_mem_cons.mp h.isDigitOf).2
    have hvalue : valueOf 10 ('0' :: cs) = valueOf 10 cs := rfl
    rw [Unsigned.zero_iff hcs, hvalue]
    exact (octal_eq_decimal_iff (by decide) hcs).trans ⟨fun h _ _ ↦ h, fun h ↦ h cs rfl⟩
  · refine iff_of_true (.decimal hc h) ?_
    intro rest heq
    exact (hc (List.cons.inj heq).1).elim

private theorem exists_cons_of_parse {text : String} {value : UInt64} (h : parse text = .ok value) :
    ∃ c rest, text.toList = c :: rest ∧ isSpace c = false ∧ c ≠ '-' := by
  rcases shape_of_parse h with hnumber | ⟨digits, htext, -⟩ | ⟨rest, htext, -⟩
  · exact hnumber.exists_cons
  · exact ⟨_, _, htext, by decide⟩
  · exact ⟨_, _, htext, by decide⟩

private theorem Denotes.le_of_parse {text : String} {value : UInt64} {n : Nat}
    (hn : Denotes text.toList n) (h : parse text = .ok value) : n ≤ value.toNat := by
  have hshape := shape_of_parse h
  generalize text.toList = cs at hn hshape
  rcases hn with hn | hn
  · rcases hshape with hnumber | ⟨digits, rfl, -⟩ | ⟨rest, rfl, hplus⟩
    · exact Nat.le_of_eq (hn.unique hnumber)
    · exact (hn.plus_notMem List.mem_cons_self).elim
    · exact (hn.plus_notMem (List.mem_cons_of_mem _ hplus)).elim
  · rcases hshape with hnumber | ⟨digits, heq, hdigits, hvalue⟩ | ⟨rest, heq, -⟩
    · exact (hnumber.plus_notMem List.mem_cons_self).elim
    · have hbehind := (List.cons.inj heq).2
      subst hbehind
      rw [← hvalue]
      exact hn.le_valueOf_ten hdigits.isDigitOf
    · exact absurd (List.cons.inj heq).1 (by decide)

private theorem denotes_iff_of_parse {text : String} {value : UInt64} (h : parse text = .ok value) :
    Denotes text.toList value.toNat ↔
      '+' ∉ text.toList.tail ∧ ∀ rest, text.toList = '+' :: '0' :: rest → value.toNat < 8 := by
  rcases shape_of_parse h with hnumber | ⟨digits, htext, hdigits, hvalue⟩ | ⟨rest, htext, hplus⟩
  · have hsign := hnumber.plus_notMem
    refine iff_of_true (.unsigned hnumber) ⟨mt List.mem_of_mem_tail hsign, ?_⟩
    intro rest htext
    rw [htext] at hsign
    exact (hsign List.mem_cons_self).elim
  · rw [htext, ← hvalue, denotes_plus_iff hdigits, List.tail_cons,
      and_iff_right (plus_notMem hdigits.isDigitOf)]
    simp only [List.cons.injEq, true_and]
  · refine iff_of_false (fun hn ↦ ?_) (fun hn ↦ ?_)
    · rw [htext] at hn
      exact hn.plus_notMem_tail hplus
    · rw [htext] at hn
      exact hn.1 hplus

/-- A numeral is converted as a whole to what it is read as exactly if it denotes that number. That
is the case exactly if no sign is behind the announced base and no octal number of eight or more is
behind a sign. -/
theorem parse_agrees_iff {text : String} {value : UInt64} (h : parse text = .ok value) :
    (convert text.toList = ⟨value.toNat, []⟩ ↔ Denotes text.toList value.toNat) ∧
      (Denotes text.toList value.toNat ↔
        '+' ∉ text.toList.tail ∧
          ∀ rest, text.toList = '+' :: '0' :: rest → value.toNat < 8) := by
  refine ⟨?_, denotes_iff_of_parse h⟩
  obtain ⟨c, rest, htext, hspace, hc⟩ := exists_cons_of_parse h
  have hconvert : convert (c :: rest) = ⟨value.toNat, []⟩ ↔ _ := convert_eq_iff hspace hc
  rw [htext, hconvert, ← htext]
  have hrange : value.toNat ≤ bound - 1 := Nat.le_pred_of_lt value.toNat_lt_size
  constructor
  · rintro ⟨n, hn, hmin⟩
    have hle := hn.le_of_parse h
    rw [Nat.min_eq_left (Nat.le_trans hle hrange)] at hmin
    rwa [← hmin]
  · exact fun hn ↦ ⟨value.toNat, hn, Nat.min_eq_left hrange⟩

/-- A number behind a sign is read as it is converted, as no zero follows the sign. -/
theorem parse_agrees_iff_sample :
    parse "+4096" = .ok 4096 ∧
      (convert "+4096".toList = ⟨4096, []⟩ ↔ Denotes "+4096".toList 4096) ∧
      (Denotes "+4096".toList 4096 ↔
        '+' ∉ "+4096".toList.tail ∧ ∀ rest, "+4096".toList = '+' :: '0' :: rest → 4096 < 8) :=
  have hparse : parse "+4096" = .ok 4096 := by rfl
  ⟨hparse, parse_agrees_iff hparse⟩

/-- Behind a sign, a leading zero does not announce octal, and behind an announced base, a sign is
read. Neither is how the texts are converted. -/
theorem parse_disagrees_behind_sign :
    (parse "+010" = .ok 10 ∧ convert "+010".toList = ⟨8, []⟩ ∧ ¬Denotes "+010".toList 10) ∧
      parse "0+7" = .ok 7 ∧ convert "0+7".toList = ⟨0, ['+', '7']⟩ ∧ ¬Denotes "0+7".toList 7 := by
  have hoctal : parse "+010" = .ok 10 := by rfl
  have hbehind : parse "0+7" = .ok 7 := by rfl
  refine ⟨⟨hoctal, by decide, ?_⟩, hbehind, by decide, ?_⟩
  · intro hten
    exact absurd (((denotes_iff_of_parse hoctal).mp hten).2 ['1', '0'] rfl) (by decide)
  · intro hseven
    exact ((denotes_iff_of_parse hbehind).mp hseven).1 List.mem_cons_self

end BootConfig.Numeral
