import ShellUnits.Decimal.Binary64

/-!
The text of a double precision number.

The digits are the fewest that read back. They are written positionally while the decimal point stands
within sixteen places after the first digit or at most four zeros before it, and always with a point;
otherwise scientifically. What differs between output formats is one field of `FloatStyle`.

Main definitions: `FloatStyle`, `FloatStyle.format`.
-/

namespace ShellUnits

/-- What an output format decides about float texts. -/
structure FloatStyle where
  /-- Stands before a positive exponent. -/
  positiveSign : String

namespace FloatStyle

/-- Positive exponents carry no sign. -/
def bare : FloatStyle := ⟨""⟩

/-- Positive exponents carry a plus sign. -/
def signed : FloatStyle := ⟨"+"⟩

/-- The text of the digits `digits` with the decimal point after `point` digits, counted from the first
    digit; `point` may be negative. -/
def layout (style : FloatStyle) (digits : List Char) (point : Int) : String :=
  let count : Int := digits.length
  if count ≤ point && point ≤ 16 then
    String.ofList (digits ++ List.replicate (point - count).toNat '0') ++ ".0"
  else if 0 < point && point ≤ 16 then
    String.ofList (digits.take point.toNat) ++ "." ++ String.ofList (digits.drop point.toNat)
  else if -5 < point && point ≤ 0 then
    "0." ++ String.ofList (List.replicate (-point).toNat '0' ++ digits)
  else
    let mantissa := match digits with
      | first :: second :: rest => String.ofList (first :: '.' :: second :: rest)
      | _ => String.ofList digits
    let exponent := point - 1
    mantissa ++ "e" ++ (if 0 ≤ exponent then style.positiveSign else "") ++ toString exponent

/-- The text of a finite number; zero keeps its sign. -/
def format (style : FloatStyle) (x : Binary64) : String :=
  let (digits, exponent) := x.shortestDigits
  let text :=
    if digits = 0 then "0.0"
    else
      let digits := Nat.toDigits 10 digits
      style.layout digits (digits.length + exponent)
  if x.isNegative then "-" ++ text else text

end FloatStyle

end ShellUnits
