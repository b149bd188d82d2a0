import ShellUnits.Value
import ShellUnits.Text.Hex

/-!
Writing values as JSON, two columns of indentation for each level.

Keys that are truth values or finite numbers become strings; other keys that are no strings have no JSON
form. A tagged value is an object whose only key is the displayed tag. What is no finite number is null.

Text goes out as it is produced, so a value without a JSON form leaves the text before the offending key
behind. `Written` keeps both.

Main definitions: `Json.WriteError`, `Json.Written`, `Json.write`.
-/

namespace ShellUnits.Json

open Text

/-- Why a value has no JSON form. -/
inductive WriteError where
  /-- A key that is null, a sequence, a mapping or tagged. -/
  | keyNotString
  /-- A key that is a floating point number but not finite. -/
  | keyNotFinite
deriving DecidableEq, Repr

def WriteError.message : WriteError → String
  | .keyNotString => "key must be a string"
  | .keyNotFinite => "float key must be finite"

/-- What has been written, and why no more. -/
structure Written where
  text : String
  failure : Option WriteError := none
deriving DecidableEq, Repr

namespace Written

def ofText (text : String) : Written := ⟨text, none⟩

/-- Goes on writing, unless writing has failed. -/
def append (first second : Written) : Written :=
  match first.failure with
  | some _ => first
  | none => ⟨first.text ++ second.text, second.failure⟩

instance : Append Written := ⟨append⟩

end Written

/-- A character between quotes. -/
def escapeChar (c : Char) : List Char :=
  if c = '"' then "\\\"".toList
  else if c = '\\' then "\\\\".toList
  else if c = '\n' then "\\n".toList
  else if c = '\r' then "\\r".toList
  else if c = '\t' then "\\t".toList
  else if c = '\x08' then "\\b".toList
  else if c = '\x0c' then "\\f".toList
  else if c.toNat < 0x20 then "\\u".toList ++ hexDigits 4 c.toNat
  else [c]

/-- A string with its quotes. -/
def stringText (text : String) : String :=
  "\"" ++ String.ofList (text.toList.flatMap escapeChar) ++ "\""

def numberText : Number → String
  | .integer value => toString value
  | .float value => if value.isFinite then FloatStyle.signed.format value else "null"

/-- The key of a member. -/
def keyText : Value → Written
  | .string text => .ofText (stringText text)
  | .bool value => .ofText (if value then "\"true\"" else "\"false\"")
  | .number (.integer value) => .ofText (stringText (toString value))
  | .number (.float value) =>
    if value.isFinite then .ofText (stringText (FloatStyle.signed.format value))
    else ⟨"", some .keyNotFinite⟩
  | _ => ⟨"", some .keyNotString⟩

/-- The start of a line at this level. -/
def newLine (level : Nat) : String :=
  "\n" ++ String.ofList (List.replicate (2 * level) ' ')

/-- What stands before a member or an element. -/
def separator (level : Nat) (first : Bool) : Written :=
  .ofText ((if first then "" else ",") ++ newLine level)

mutual

/-- The text of a value whose first line is already indented. -/
def writeValue (level : Nat) : Value → Written
  | .null => .ofText "null"
  | .bool value => .ofText (if value then "true" else "false")
  | .number value => .ofText (numberText value)
  | .string text => .ofText (stringText text)
  | .sequence .nil => .ofText "[]"
  | .sequence (.cons item rest) =>
    .ofText "[" ++ separator (level + 1) true ++ writeValue (level + 1) item
      ++ writeItems (level + 1) rest ++ .ofText (newLine level ++ "]")
  | .mapping .nil => .ofText "\x7b\x7d"
  | .mapping (.cons key value rest) =>
    .ofText "\x7b" ++ separator (level + 1) true ++ keyText key ++ .ofText ": "
      ++ writeValue (level + 1) value ++ writeEntries (level + 1) rest
      ++ .ofText (newLine level ++ "\x7d")
  | .tagged tag value =>
    .ofText "\x7b" ++ separator (level + 1) true ++ .ofText (stringText (displayTag tag) ++ ": ")
      ++ writeValue (level + 1) value ++ .ofText (newLine level ++ "\x7d")

/-- Further elements of an array. -/
def writeItems (level : Nat) : Items → Written
  | .nil => .ofText ""
  | .cons item rest => separator level false ++ writeValue level item ++ writeItems level rest

/-- Further members of an object. -/
def writeEntries (level : Nat) : Entries → Written
  | .nil => .ofText ""
  | .cons key value rest =>
    separator level false ++ keyText key ++ .ofText ": " ++ writeValue level value
      ++ writeEntries level rest

end

/-- The JSON text of a value, without a line end. -/
def write (value : Value) : Written := writeValue 0 value

end ShellUnits.Json
