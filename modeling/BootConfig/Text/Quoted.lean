/-!
# Quoted text

The form in which a trace shows a text: between double quotes, with a backslash before quotes and
backslashes, short names for the common control characters, and code points in hexadecimal for the
others. The rule is for ASCII; other characters stand for themselves.
-/

namespace BootConfig.Text

/-- How one character is written between the quotes. -/
def quoteChar (c : Char) : List Char :=
  match c with
  | '"' => ['\\', '"']
  | '\\' => ['\\', '\\']
  | '\n' => ['\\', 'n']
  | '\r' => ['\\', 'r']
  | '\t' => ['\\', 't']
  | '\x00' => ['\\', '0']
  | c =>
    if c.toNat < 0x20 || c.toNat == 0x7f then
      ['\\', 'u', '\x7b'] ++ Nat.toDigits 16 c.toNat ++ ['\x7d']
    else [c]

/-- The text between double quotes, with escapes. -/
def quote (text : String) : String :=
  String.ofList ('"' :: text.toList.flatMap quoteChar ++ ['"'])

example : quote "say \"hi\"\x01" = "\"say \\\"hi\\\"\\u\x7b1\x7d\"" := by decide

end BootConfig.Text
