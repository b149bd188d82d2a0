import ShellUnits.Text.Hex
import ShellUnits.Text.Printable

/-!
Text in double quotes with escapes, as error texts show strings.

Quotes, backslashes and the common control characters have escapes of their own; every other character
that cannot be seen is shown by its code point.

Main definition: `quoted`.
-/

namespace ShellUnits.Text

/-- A character between quotes. -/
def quotedChar (c : Char) : List Char :=
  if c = '"' then "\\\"".toList
  else if c = '\\' then "\\\\".toList
  else if c = '\n' then "\\n".toList
  else if c = '\r' then "\\r".toList
  else if c = '\t' then "\\t".toList
  else if c = '\x00' then "\\0".toList
  else if isVisible c then [c]
  else "\\u\x7b".toList ++ hexDigits 1 c.toNat ++ "\x7d".toList

/-- The text between double quotes. -/
def quoted (text : String) : String :=
  "\"" ++ String.ofList (text.toList.flatMap quotedChar) ++ "\""

end ShellUnits.Text
