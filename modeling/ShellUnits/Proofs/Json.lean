import ShellUnits.Document.Basic
import ShellUnits.Json.Writer

/-!
Which values have a JSON form.

Only keys can stand in the way, at any depth: those that are null, collections or tagged, and those that are
no finite number. In a document such keys can only stand in the options. Since text goes out as it is
produced, a document without a JSON form always leaves some text behind.

Main statements: `Json.writeValue_failure_eq_none_iff`, `Document.json_failure_eq_none_iff`,
`Document.json_text_ne_empty`.
-/

namespace ShellUnits

/-- The value can be the key of a JSON object. -/
def Value.IsJsonKey : Value → Prop
  | .string _ => True
  | .bool _ => True
  | .number (.integer _) => True
  | .number (.float value) => value.isFinite
  | .null => False
  | .sequence _ => False
  | .mapping _ => False
  | .tagged _ _ => False

mutual

/-- All keys in the value can be keys of JSON objects. -/
def Value.HasJson : Value → Prop
  | .null => True
  | .bool _ => True
  | .number _ => True
  | .string _ => True
  | .sequence items => items.HasJson
  | .mapping entries => entries.HasJson
  | .tagged _ value => value.HasJson

def Items.HasJson : Items → Prop
  | .nil => True
  | .cons item rest => item.HasJson ∧ rest.HasJson

/-- All keys of the entries and all keys in their values can be keys of JSON objects. -/
def Entries.HasJson : Entries → Prop
  | .nil => True
  | .cons key value rest => key.IsJsonKey ∧ value.HasJson ∧ rest.HasJson

end

namespace Json

@[simp] theorem Written.ofText_failure (text : String) : (Written.ofText text).failure = none := rfl

@[simp] theorem Written.append_failure_eq_none {first second : Written} :
    (first ++ second).failure = none ↔ first.failure = none ∧ second.failure = none := by
  show (first.append second).failure = none ↔ _
  unfold Written.append
  cases fails : first.failure with
  | none => simp
  | some failure => simp [fails]

/-- What has been written stays written. -/
theorem Written.append_text_ne_empty {first : Written} (ne : first.text ≠ "") (second : Written) :
    (first ++ second).text ≠ "" := by
  show (first.append second).text ≠ ""
  unfold Written.append
  cases first.failure with
  | none => simp [String.append_eq_empty_iff, ne]
  | some failure => exact ne

theorem keyText_failure_eq_none_iff (key : Value) : (keyText key).failure = none ↔ key.IsJsonKey := by
  cases key with
  | number number =>
      cases number with
      | integer value => simp [keyText, Value.IsJsonKey]
      | float value =>
          simp only [keyText, Value.IsJsonKey]
          split <;> simp [*]
  | null => simp [keyText, Value.IsJsonKey]
  | bool value => simp [keyText, Value.IsJsonKey]
  | string text => simp [keyText, Value.IsJsonKey]
  | sequence items => simp [keyText, Value.IsJsonKey]
  | mapping entries => simp [keyText, Value.IsJsonKey]
  | tagged tag value => simp [keyText, Value.IsJsonKey]

mutual

/-- Writing succeeds exactly for values with a JSON form. -/
theorem writeValue_failure_eq_none_iff (level : Nat) :
    ∀ value : Value, (writeValue level value).failure = none ↔ value.HasJson
  | .null => by simp [writeValue, Value.HasJson]
  | .bool _ => by simp [writeValue, Value.HasJson]
  | .number _ => by simp [writeValue, Value.HasJson]
  | .string _ => by simp [writeValue, Value.HasJson]
  | .sequence .nil => by simp [writeValue, Value.HasJson, Items.HasJson]
  | .sequence (.cons item rest) => by
      simp [writeValue, separator, Value.HasJson, Items.HasJson,
        writeValue_failure_eq_none_iff (level + 1) item, writeItems_failure_eq_none_iff (level + 1) rest]
  | .mapping .nil => by simp [writeValue, Value.HasJson, Entries.HasJson]
  | .mapping (.cons key value rest) => by
      simp [writeValue, separator, Value.HasJson, Entries.HasJson, keyText_failure_eq_none_iff,
        writeValue_failure_eq_none_iff (level + 1) value, writeEntries_failure_eq_none_iff (level + 1) rest,
        and_assoc]
  | .tagged tag value => by
      simp [writeValue, separator, Value.HasJson, writeValue_failure_eq_none_iff (level + 1) value]

theorem writeItems_failure_eq_none_iff (level : Nat) :
    ∀ items : Items, (writeItems level items).failure = none ↔ items.HasJson
  | .nil => by simp [writeItems, Items.HasJson]
  | .cons item rest => by
      simp [writeItems, separator, Items.HasJson, writeValue_failure_eq_none_iff level item,
        writeItems_failure_eq_none_iff level rest]

theorem writeEntries_failure_eq_none_iff (level : Nat) :
    ∀ entries : Entries, (writeEntries level entries).failure = none ↔ entries.HasJson
  | .nil => by simp [writeEntries, Entries.HasJson]
  | .cons key value rest => by
      simp [writeEntries, separator, Entries.HasJson, keyText_failure_eq_none_iff,
        writeValue_failure_eq_none_iff level value, writeEntries_failure_eq_none_iff level rest, and_assoc]

end

end Json

/-!
### Documents
-/

/-- An attribute never stands in the way. -/
theorem attributeEntry_hasJson {key : String} {text : Option String} {rest : Entries} :
    (attributeEntry key text rest).HasJson ↔ rest.HasJson := by
  cases text <;> simp [attributeEntry, Entries.HasJson, Value.IsJsonKey, Value.HasJson]

mutual

theorem Node.toValue_hasJson : ∀ node : Node, node.toValue.HasJson
  | .group attributes children => by
      simpa only [Node.toValue, Value.HasJson, Attributes.toEntries, attributeEntry_hasJson] using
        Children.toEntries_hasJson children
  | .command _ => trivial
  | .placeholder => trivial
  | .reference _ => trivial

/-- Units always have a JSON form. -/
theorem Children.toEntries_hasJson : ∀ children : Children, children.toEntries.HasJson
  | .nil => trivial
  | .cons _ node rest => ⟨trivial, Node.toValue_hasJson node, Children.toEntries_hasJson rest⟩

end

theorem Options.toEntries_hasJson_iff (options : Options) :
    options.toEntries.HasJson ↔ ∀ option ∈ options, option.2.HasJson := by
  induction options with
  | nil => simp [Options.toEntries, Entries.HasJson]
  | cons option rest ih =>
      obtain ⟨key, value⟩ := option
      simp [Options.toEntries, Entries.HasJson, Value.IsJsonKey, ih]

/-- A document has a JSON form exactly when its options have. -/
theorem Document.json_failure_eq_none_iff (document : Document) :
    (Json.write document.toValue).failure = none ↔ ∀ option ∈ document.options, option.2.HasJson := by
  have units : document.units.toValue.HasJson := Node.toValue_hasJson document.units.toNode
  simp [Json.write, Json.writeValue_failure_eq_none_iff, Document.toValue, Value.HasJson, Entries.HasJson,
    Value.IsJsonKey, Options.toEntries_hasJson_iff, units]

/-- Writing a document as JSON begins with a brace, however it ends. -/
theorem Document.json_text_ne_empty (document : Document) : (Json.write document.toValue).text ≠ "" := by
  simp only [Json.write, Document.toValue, Json.writeValue]
  repeat apply Json.Written.append_text_ne_empty
  decide

end ShellUnits
