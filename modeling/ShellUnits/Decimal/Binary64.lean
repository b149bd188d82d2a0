/-!
Double precision numbers as their bit patterns, in exact arithmetic.

A finite pattern stands for `significand · 2 ^ exponent`. Both directions between patterns and decimal
numbers are computed on natural numbers: `ofDecimal` rounds a decimal number to the nearest pattern (a tie
goes to the even significand), `shortestDigits` finds the fewest decimal digits that `ofDecimal` reads back
as the same pattern.

Main definitions: `Binary64`, `Binary64.ofDecimal`, `Binary64.shortestDigits`.
-/

namespace ShellUnits

/-- A double precision number, given by its bit pattern: sign, eleven bits of exponent, fifty-two bits of
    fraction. -/
structure Binary64 where
  bits : UInt64
deriving DecidableEq, Repr, Inhabited

namespace Binary64

/-- The bit pattern without the sign. -/
def magnitude (x : Binary64) : Nat := x.bits.toNat % Nat.pow 2 63

/-- Whether the sign bit is set, also for zero. -/
def isNegative (x : Binary64) : Bool := Nat.pow 2 63 ≤ x.bits.toNat

/-- The magnitude of the infinities; larger magnitudes are not numbers. -/
def infinityMagnitude : Nat := 2047 * Nat.pow 2 52

def isInfinite (x : Binary64) : Bool := x.magnitude == infinityMagnitude

def isNaN (x : Binary64) : Bool := infinityMagnitude < x.magnitude

def isFinite (x : Binary64) : Bool := x.magnitude < infinityMagnitude

/-- The number with this sign and magnitude. -/
def ofMagnitude (negative : Bool) (magnitude : Nat) : Binary64 :=
  ⟨UInt64.ofNat (magnitude + if negative then Nat.pow 2 63 else 0)⟩

def infinity (negative : Bool) : Binary64 := ofMagnitude negative infinityMagnitude

def nan : Binary64 := ofMagnitude false (infinityMagnitude + Nat.pow 2 51)

/-- Equality of the numbers meant: both zeros are one number, and so are all patterns that are no number. -/
def same (x y : Binary64) : Bool :=
  x == y || (x.isNaN && y.isNaN) || (x.magnitude == 0 && y.magnitude == 0)

/-- Significand and exponent of a finite number: its absolute value is `significand · 2 ^ exponent`. -/
def decode (x : Binary64) : Nat × Int :=
  let field : Nat := x.magnitude / Nat.pow 2 52
  let fraction : Nat := x.magnitude % Nat.pow 2 52
  if field = 0 then (fraction, -1074) else (fraction + Nat.pow 2 52, (field : Int) - 1075)

/-!
### Reading decimal numbers
-/

/-- `num / den` rounded to the nearest natural number, a tie to the even one. -/
def roundHalfEven (num den : Nat) : Nat :=
  let quotient := num / den
  let twice := 2 * (num % den)
  if twice < den then quotient
  else if den < twice then quotient + 1
  else quotient + quotient % 2

/-- A fraction scaled by a power of two, as a numerator and a denominator. -/
def scaleByTwo (num den : Nat) (power : Int) : Nat × Nat :=
  if 0 ≤ power then (num * Nat.pow 2 power.toNat, den) else (num, den * Nat.pow 2 (-power).toNat)

/-- The magnitude nearest to the positive fraction `num / den`. The exponent is chosen so that the
    significand has fifty-three bits, or is the least exponent there is; adding the significand to the
    exponent field carries its leading bit into the field. -/
def nearestMagnitude (num den : Nat) : Nat :=
  let guess : Int := (Nat.log2 num : Int) - (Nat.log2 den : Int) - 53
  let (n, d) := scaleByTwo num den (-guess)
  let exponent := max (-1074) (if n < Nat.pow 2 53 * d then guess else guess + 1)
  let (n, d) := scaleByTwo num den (-exponent)
  min infinityMagnitude ((exponent + 1074).toNat * Nat.pow 2 52 + roundHalfEven n d)

/-- The number nearest to `digits · 10 ^ exponent` with this sign. Exponents far outside the range of the
    format give zero or infinity without being computed. -/
def ofDecimal (negative : Bool) (digits : Nat) (exponent : Int) : Binary64 :=
  let size : Int := (Nat.log2 digits : Int)
  if digits = 0 || 3 * exponent + size < -1200 then
    ofMagnitude negative 0
  else if 400 < exponent then infinity negative
  else if 0 ≤ exponent then ofMagnitude negative (nearestMagnitude (digits * Nat.pow 10 exponent.toNat) 1)
  else ofMagnitude negative (nearestMagnitude digits (Nat.pow 10 (-exponent).toNat))

/-!
### Shortest decimal digits
-/

/-- Whether `num / den < 10 ^ power`. -/
def belowPowerOfTen (num den : Nat) (power : Int) : Bool :=
  if 0 ≤ power then num < den * Nat.pow 10 power.toNat else num * Nat.pow 10 (-power).toNat < den

/-- The least `power` with `num / den < 10 ^ power`, searched upwards from a lower bound. -/
def powerAbove (num den : Nat) (start : Int) : Nat → Int
  | 0 => start
  | fuel + 1 => if belowPowerOfTen num den start then start else powerAbove num den (start + 1) fuel

/-- Takes trailing zeros off a digit number, counting each in the exponent. -/
def stripZeros (digits : Nat) (exponent : Int) : Nat → Nat × Int
  | 0 => (digits, exponent)
  | fuel + 1 =>
    if digits % 10 = 0 && digits ≠ 0 then stripZeros (digits / 10) (exponent + 1) fuel
    else (digits, exponent)

/-- The numbers that read back as one magnitude: those between `low / den` and `high / den`, ends included
    if `closed`; `mid / den` is the exact value. -/
structure Interval where
  low : Nat
  mid : Nat
  high : Nat
  den : Nat
  closed : Bool

/-- Whether `digits · 10 ^ exponent` lies in the interval. -/
def Interval.contains (i : Interval) (digits : Nat) (exponent : Int) : Bool :=
  let (value, scale) :=
    if 0 ≤ exponent then (digits * Nat.pow 10 exponent.toNat * i.den, 1)
    else (digits * i.den, Nat.pow 10 (-exponent).toNat)
  if i.closed then i.low * scale ≤ value && value ≤ i.high * scale
  else i.low * scale < value && value < i.high * scale

/-- The exact value in units of `10 ^ exponent`, as a numerator and a denominator. -/
def Interval.inUnits (i : Interval) (exponent : Int) : Nat × Nat :=
  if 0 ≤ exponent then (i.mid, i.den * Nat.pow 10 exponent.toNat)
  else (i.mid * Nat.pow 10 (-exponent).toNat, i.den)

/-- Tries the grids of `count`, `count + 1`, … digits: of the two grid points around the exact value those
    that read back are candidates, and the nearer one wins. -/
def Interval.shortest (i : Interval) (power : Int) (count : Nat) : Nat → Nat × Int
  | 0 => (0, 0)
  | fuel + 1 =>
    let exponent := power - count
    let (n, d) := i.inUnits exponent
    let below := n / d
    let above := if n % d = 0 then below else below + 1
    let fitsBelow := below ≠ 0 && i.contains below exponent
    let fitsAbove := i.contains above exponent
    if fitsBelow && fitsAbove then (roundHalfEven n d, exponent)
    else if fitsBelow then (below, exponent)
    else if fitsAbove then (above, exponent)
    else i.shortest power (count + 1) fuel

/-- The interval of a significand and an exponent. Below a power of two the spacing halves, unless the
    exponent is already the least. -/
def intervalOf (significand : Nat) (exponent : Int) : Interval :=
  let lowGap := if significand = Nat.pow 2 52 && -1074 < exponent then 1 else 2
  let closed := significand % 2 == 0
  let (scale, den) := scaleByTwo 1 1 (exponent - 2)
  ⟨(4 * significand - lowGap) * scale, 4 * significand * scale, (4 * significand + 2) * scale, den, closed⟩

/-- The fewest decimal digits that read back as this finite number, not ending in zero, with the power of
    ten that they are to be multiplied by; zero gives no digits. -/
def shortestDigits (x : Binary64) : Nat × Int :=
  let (significand, exponent) := x.decode
  if significand = 0 then (0, 0)
  else
    let i := intervalOf significand exponent
    let start : Int := ((Nat.log2 i.mid : Int) - (Nat.log2 i.den : Int)) * 30103 / 100000 - 1
    let power := powerAbove i.mid i.den start 5
    let (digits, exponent) := i.shortest power 1 18
    stripZeros digits exponent 20

end Binary64

end ShellUnits
