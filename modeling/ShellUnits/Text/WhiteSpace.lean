/-!
The Unicode property `White_Space`.

Ids of a reference never contain a character of this class. The class is larger than ASCII blanks and
smaller than "all invisible characters": the separators U+001C to U+001F, the Mongolian vowel separator
and the zero width characters are not in it.
-/

namespace ShellUnits.Text

/-- Whether the character has the Unicode property `White_Space`. -/
def isWhiteSpace (c : Char) : Bool :=
  let n := c.toNat
  (0x9 ≤ n && n ≤ 0xD) || n == 0x20 || n == 0x85 || n == 0xA0 || n == 0x1680 ||
    (0x2000 ≤ n && n ≤ 0x200A) || n == 0x2028 || n == 0x2029 || n == 0x202F || n == 0x205F ||
    n == 0x3000

end ShellUnits.Text
