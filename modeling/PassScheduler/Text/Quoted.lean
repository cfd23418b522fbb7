import PassScheduler.Text.Unprintable

/-!
Contract: text between double quotes, as messages show it.

Owns: the escapes. A quote and a backslash take a backslash, four control characters have short
names, and every other unprintable character is shown by its number in lower-case hexadecimal.

Does not own: the escapes of a data format, which differ.
-/

namespace PassScheduler.Text

/-- A character as it stands between double quotes. -/
def quotedChar (c : Char) : String :=
  match c with
  | '"' => "\\\""
  | '\\' => "\\\\"
  | '\x00' => "\\0"
  | '\t' => "\\t"
  | '\n' => "\\n"
  | '\r' => "\\r"
  | c =>
      if isUnprintable c then
        "\\u\x7b" ++ String.ofList (Nat.toDigits 16 c.toNat) ++ "\x7d"
      else
        String.singleton c

/-- A text between double quotes. -/
def quoted (text : String) : String :=
  "\"" ++ String.join (text.toList.map quotedChar) ++ "\""

end PassScheduler.Text
