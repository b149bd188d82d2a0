import ShellUnits.Decimal.Binary64

/-!
Reading decimal floating point numbers.

The grammar is an optional sign, digits with at most one point among them and at least one digit in all,
and an optional exponent, an `e` or `E` with an optional sign and at least one digit. Nothing else may
follow.

Main definition: `Binary64.ofText?`.
-/

namespace ShellUnits

/-- The value of a digit character in bases up to sixteen. -/
def digitValue? (base : Nat) (c : Char) : Option Nat :=
  let value :=
    if '0' ≤ c && c ≤ '9' then c.toNat - '0'.toNat
    else if 'a' ≤ c && c ≤ 'f' then c.toNat - 'a'.toNat + 10
    else if 'A' ≤ c && c ≤ 'F' then c.toNat - 'A'.toNat + 10
    else base
  if value < base then some value else none

/-- The number that digits of this base denote; `none` if there are no digits or another character. -/
def natOfDigits? (base : Nat) (digits : List Char) : Option Nat :=
  if digits = [] then none
  else digits.foldl (fun acc c => do return (← acc) * base + (← digitValue? base c)) (some 0)

namespace Binary64

/-- Takes an optional sign off the front; `true` for a minus. -/
def splitSign : List Char → Bool × List Char
  | '-' :: rest => (true, rest)
  | '+' :: rest => (false, rest)
  | text => (false, text)

/-- The exponent after the mantissa: nothing, or `e`, an optional sign and digits. -/
def exponentOf? : List Char → Option Int
  | [] => some 0
  | c :: rest =>
    if c = 'e' || c = 'E' then
      let (negative, digits) := splitSign rest
      (natOfDigits? 10 digits).map fun n => if negative then -(n : Int) else n
    else none

/-- The mantissa at the front of an unsigned number: all its digits, how many of them stand after the
    point, and what follows. -/
def splitMantissa (text : List Char) : List Char × Nat × List Char :=
  let whole := text.takeWhile Char.isDigit
  match text.dropWhile Char.isDigit with
  | '.' :: rest =>
    let fraction := rest.takeWhile Char.isDigit
    (whole ++ fraction, fraction.length, rest.dropWhile Char.isDigit)
  | rest => (whole, 0, rest)

/-- The number nearest to the one that the text denotes. -/
def ofText? (text : List Char) : Option Binary64 := do
  let (negative, unsigned) := splitSign text
  let (digits, places, rest) := splitMantissa unsigned
  let exponent ← exponentOf? rest
  let value ← natOfDigits? 10 digits
  return ofDecimal negative value (exponent - places)

end Binary64

end ShellUnits
