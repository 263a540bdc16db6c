/-!
# Blank characters

The characters that do not count at the end of a line: Unicode white space, which is the 25 code
points of the property `White_Space`, and the four information separators `U+001C` to `U+001F`,
which lie outside it.
-/

namespace BootConfig.Text

/-- The code points with the Unicode property `White_Space`. -/
def isWhiteSpace (c : Char) : Bool :=
  let n := c.toNat
  (0x09 ≤ n && n ≤ 0x0d) || n == 0x20 || n == 0x85 || n == 0xa0 || n == 0x1680 ||
    (0x2000 ≤ n && n ≤ 0x200a) || n == 0x2028 || n == 0x2029 || n == 0x202f || n == 0x205f ||
    n == 0x3000

/-- The separators of files, groups, records and units. -/
def isInformationSeparator (c : Char) : Bool :=
  0x1c ≤ c.toNat && c.toNat ≤ 0x1f

/-- A character that is ignored where it stands at the end of a line. -/
def isBlank (c : Char) : Bool :=
  isWhiteSpace c || isInformationSeparator c

/-- The characters without the blanks at their end. -/
def trimEnd (cs : List Char) : List Char :=
  (cs.reverse.dropWhile isBlank).reverse

/-- What is trimmed is a run of blanks at the end. -/
theorem trimEnd_append_blanks (cs : List Char) :
    trimEnd cs ++ (cs.reverse.takeWhile isBlank).reverse = cs := by
  rw [trimEnd, ← List.reverse_append, List.takeWhile_append_dropWhile, List.reverse_reverse]

end BootConfig.Text
