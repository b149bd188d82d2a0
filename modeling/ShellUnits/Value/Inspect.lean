import ShellUnits.Value
import ShellUnits.Text.Quoted

/-!
The inspection text of a value, which names the kind of every part. Error texts show with it the keys that
are no strings. Keys that are truth values, numbers or strings stand bare inside a mapping.
-/

namespace ShellUnits

open Text

/-- The inspection text of a key inside a mapping, given its full inspection text. -/
def bareKey (full : String) : Value → String
  | .bool value => if value then "true" else "false"
  | .number value => value.text
  | .string text => quoted text
  | _ => full

mutual

/-- The inspection text of a value. -/
def Value.inspect : Value → String
  | .null => "Null"
  | .bool value => if value then "Bool(true)" else "Bool(false)"
  | .number value => "Number(" ++ value.text ++ ")"
  | .string text => "String(" ++ quoted text ++ ")"
  | .sequence items => "Sequence [" ++ ", ".intercalate items.inspect ++ "]"
  | .mapping entries => "Mapping \x7b" ++ ", ".intercalate entries.inspect ++ "\x7d"
  | .tagged tag value =>
    "TaggedValue \x7b tag: " ++ displayTag tag ++ ", value: " ++ value.inspect ++ " \x7d"

def Items.inspect : Items → List String
  | .nil => []
  | .cons item rest => item.inspect :: rest.inspect

def Entries.inspect : Entries → List String
  | .nil => []
  | .cons key value rest => (bareKey key.inspect key ++ ": " ++ value.inspect) :: rest.inspect

end

end ShellUnits
