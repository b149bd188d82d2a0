import ShellUnits.Value
import ShellUnits.Decimal.Reading

/-!
What a plain scalar denotes.

A plain scalar is tried as null, as a truth value, as an integer, as a floating point number, and is a
string otherwise. Digits after a leading zero are a string. An integer that fits into 128 bits but not into
64 denotes nothing, so that no document can hold it.

Main definitions: `Yaml.Plain`, `Yaml.plain`.
-/

namespace ShellUnits.Yaml

/-- What a plain scalar denotes. -/
inductive Plain where
  /-- A value other than a string. -/
  | value (value : Value)
  /-- An integer that no number can hold. -/
  | outOfRange
  /-- The text itself. -/
  | string

/-- Whether the text is one of the spellings of null, the empty text included. -/
def isNull (text : List Char) : Bool :=
  text = [] || text == "~".toList || text == "null".toList || text == "Null".toList ||
    text == "NULL".toList

/-- The truth value that the text spells. -/
def bool? (text : List Char) : Option Bool :=
  if text == "true".toList || text == "True".toList || text == "TRUE".toList then some true
  else if text == "false".toList || text == "False".toList || text == "FALSE".toList then some false
  else none

/-- The text without one sign in front. -/
def dropSign : List Char → List Char
  | '-' :: rest => rest
  | '+' :: rest => rest
  | text => text

/-- Whether the text is, after an optional sign, a zero followed by further digits only. -/
def isZeroPadded (text : List Char) : Bool :=
  match dropSign text with
  | '0' :: c :: rest => (c :: rest).all Char.isDigit
  | _ => false

/-- The magnitude that unsigned digits denote, with the base prefix `0x`, `0o` or `0b` or none. -/
def magnitude? : List Char → Option Nat
  | '0' :: 'x' :: rest => natOfDigits? 16 rest
  | '0' :: 'o' :: rest => natOfDigits? 8 rest
  | '0' :: 'b' :: rest => natOfDigits? 2 rest
  | digits => natOfDigits? 10 digits

/-- The integer that the text spells, if it fits into 128 bits. -/
def integer? (text : List Char) : Option Int :=
  if isZeroPadded text then none
  else match text with
    | '-' :: rest => (magnitude? rest).bind fun n => if n ≤ Nat.pow 2 127 then some (-(n : Int)) else none
    | _ =>
      let unsigned := match text with
        | '+' :: rest => rest
        | _ => text
      (magnitude? unsigned).bind fun n => if n < Nat.pow 2 128 then some (n : Int) else none

/-- Whether the text is the name of infinity. -/
def isInfinityName (text : List Char) : Bool :=
  text == ".inf".toList || text == ".Inf".toList || text == ".INF".toList

/-- The floating point number that the text spells; a number too large for the format is none. -/
def float? (text : List Char) : Option Binary64 :=
  let unplussed? := match text with
    | '+' :: rest =>
      match rest with
      | '+' :: _ => none
      | '-' :: _ => none
      | _ => some rest
    | _ => some text
  match unplussed? with
  | none => none
  | some unplussed =>
    if isInfinityName unplussed then some (Binary64.infinity false)
    else if text.head? = some '-' && isInfinityName text.tail then some (Binary64.infinity true)
    else if text == ".nan".toList || text == ".NaN".toList || text == ".NAN".toList then
      some Binary64.nan
    else (Binary64.ofText? unplussed).bind fun x => if x.isFinite then some x else none

/-- Whether an integer is a number that a document can hold. -/
def inRange (n : Int) : Bool := -(Nat.pow 2 63 : Int) ≤ n && n < (Nat.pow 2 64 : Int)

/-- What the plain scalar with this text denotes. -/
def plain (text : List Char) : Plain :=
  if isNull text then .value .null
  else match bool? text with
    | some b => .value (.bool b)
    | none =>
      match integer? text with
      | some n => if inRange n then .value (.number (.integer n)) else .outOfRange
      | none =>
        if isZeroPadded text then .string
        else match float? text with
          | some x => .value (.number (.float x))
          | none => .string

/-- Whether a string with this text must not be written plain, because it would be read as something
    else or looks like a number. -/
def isMistakable (text : List Char) : Bool :=
  match plain text with
  | .string => isZeroPadded text
  | _ => true

end ShellUnits.Yaml
