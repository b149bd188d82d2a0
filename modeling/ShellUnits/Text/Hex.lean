/-!
Hexadecimal digits of code points.
-/

namespace ShellUnits.Text

/-- The lower case hexadecimal digits of a number, padded with zeros to `width`. -/
def hexDigits (width n : Nat) : List Char :=
  let digits := Nat.toDigits 16 n
  List.replicate (width - digits.length) '0' ++ digits

/-- The upper case hexadecimal digits of a number, padded with zeros to `width`. -/
def upperHexDigits (width n : Nat) : List Char :=
  (hexDigits width n).map Char.toUpper

end ShellUnits.Text
