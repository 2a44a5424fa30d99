import ScriptHints.Text.Printable

/-!
# Quoted texts

A text between quotation marks, written so that every character of it can be seen: the marks and
the backslash are preceded by a backslash, line ends, tabs and the null character have short names,
and any other character that is not printable is given by its code point in hexadecimal.
-/

namespace ScriptHints.Text

/-- The form of one character inside quotation marks. -/
def escapeChar (c : Char) : String :=
  if c = '"' then "\\\""
  else if c = '\\' then "\\\\"
  else if c = '\n' then "\\n"
  else if c = '\r' then "\\r"
  else if c = '\t' then "\\t"
  else if c.toNat = 0 then "\\0"
  else if isPrintable c then c.toString
  else "\\u\x7b" ++ String.ofList (Nat.toDigits 16 c.toNat) ++ "\x7d"

/-- A text between quotation marks. -/
def quote (s : String) : String :=
  "\"" ++ String.join (s.toList.map escapeChar) ++ "\""

end ScriptHints.Text
