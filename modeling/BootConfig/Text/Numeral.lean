/-!
# Numerals

Unsigned 64-bit numbers in decimal, in hexadecimal after `0x` or `0X`, and in octal after a leading
zero. Letters count in either case. A numeral is read from left to right and the first position
that is wrong decides: a character that is no digit of the radix, or a digit with which the value
leaves the range.
-/

namespace BootConfig

/-- Why a text is no numeral. -/
inductive NumeralError where
  | empty
  | invalidDigit
  | tooLarge
  deriving DecidableEq, Repr

/-- The text of a numeral error. -/
def NumeralError.message : NumeralError → String
  | .empty => "cannot parse integer from empty string"
  | .invalidDigit => "invalid digit found in string"
  | .tooLarge => "number too large to fit in target type"

namespace Numeral

/-- Values lie below this bound. -/
def bound : Nat := UInt64.size

/-- The value of a digit of the radix: `0` to `9`, then lower-case letters from ten on. -/
def digit? (radix : Nat) (c : Char) : Option Nat :=
  let value :=
    if c.isDigit then some (c.toNat - '0'.toNat)
    else if c.isLower then some (c.toNat - 'a'.toNat + 10)
    else none
  value.filter (· < radix)

/-- Reads digits that follow digits of the given value. -/
def readDigits (radix : Nat) : Nat → List Char → Except NumeralError Nat
  | value, [] => .ok value
  | value, c :: cs =>
    match digit? radix c with
    | none => .error .invalidDigit
    | some d =>
      if value * radix + d < bound then readDigits radix (value * radix + d) cs
      else .error .tooLarge

/-- Reads a magnitude. A plus sign in front of further characters is passed over. -/
def readMagnitude (radix : Nat) : List Char → Except NumeralError Nat
  | [] => .error .empty
  | '+' :: c :: cs => readDigits radix 0 (c :: cs)
  | cs => readDigits radix 0 cs

/-- The radix that the first characters announce, and the characters after them. A zero announces
octal only if something follows it. -/
def splitRadix : List Char → Nat × List Char
  | '0' :: 'x' :: cs => (16, cs)
  | '0' :: c :: cs => (8, c :: cs)
  | cs => (10, cs)

/-- Reads a numeral. -/
def parse (text : String) : Except NumeralError UInt64 :=
  let (radix, cs) := splitRadix (text.toList.map Char.toLower)
  (readMagnitude radix cs).map UInt64.ofNat

/-- The hexadecimal numeral of a number, in lower case and without leading zeros. -/
def hex (n : Nat) : String :=
  "0x" ++ String.ofList (Nat.toDigits 16 n)

example : hex 0x7c00 = "0x7c00" := by decide
example : (parse "0X7C00").toOption = some 0x7c00 := by decide
example : (parse "0755").toOption = some 0o755 := by decide
example : (parse "09").toOption = none := by decide

end Numeral

end BootConfig
