import ShellUnits.Decimal.Layout

/-!
Dynamic values: what a document holds before it is read as units, and what the options keep.

The items of a sequence and the entries of a mapping are list types of their own, declared together with
the values, so that functions on values are structural recursions. The entries of a mapping are ordered.

Main definitions: `Number`, `Value`, `Items`, `Entries`, `Value.same`, `Value.asText?`.
-/

namespace ShellUnits

/-- An integer or a double precision number; the two kinds are never equal. -/
inductive Number where
  | integer (value : Int)
  | float (value : Binary64)
deriving DecidableEq, Repr, Inhabited

namespace Number

/-- Equality of the numbers meant. -/
def same : Number → Number → Bool
  | .integer a, .integer b => a == b
  | .float a, .float b => a.same b
  | _, _ => false

/-- The text of a number outside JSON, where the infinities and what is no number have names. -/
def text : Number → String
  | .integer value => toString value
  | .float value =>
    if value.isNaN then ".nan"
    else if value.isInfinite then (if value.isNegative then "-.inf" else ".inf")
    else FloatStyle.bare.format value

end Number

mutual

/-- A dynamic value. -/
inductive Value where
  | null
  | bool (value : Bool)
  | number (value : Number)
  | string (text : String)
  | sequence (items : Items)
  | mapping (entries : Entries)
  /-- A value with a tag, given by its name without the leading exclamation mark. -/
  | tagged (tag : String) (value : Value)

/-- The items of a sequence. -/
inductive Items where
  | nil
  | cons (item : Value) (rest : Items)

/-- The entries of a mapping, in order. -/
inductive Entries where
  | nil
  | cons (key : Value) (value : Value) (rest : Entries)

end

deriving instance DecidableEq, Repr for Value, Items, Entries

instance : Inhabited Value := ⟨.null⟩

namespace Items

def ofList : List Value → Items
  | [] => .nil
  | item :: rest => .cons item (ofList rest)

end Items

namespace Entries

def toList : Entries → List (Value × Value)
  | .nil => []
  | .cons key value rest => (key, value) :: rest.toList

def append : Entries → Entries → Entries
  | .nil, others => others
  | .cons key value rest, others => .cons key value (rest.append others)

end Entries

/-- The name of a tag: the text without one leading exclamation mark, unless nothing else is left. -/
def tagName (text : String) : String :=
  match text.toList with
  | '!' :: c :: rest => String.ofList (c :: rest)
  | _ => text

/-- A tag as it is shown. -/
def displayTag (name : String) : String := "!" ++ name

/-!
### Equality up to order

Two mappings are the same when they have the same number of entries and each entry of one is found in the
other, whatever the order. Keys are compared in the same way.
-/

/-- The value that belongs to the first key that satisfies `p`. -/
def Entries.find? (p : Value → Bool) : Entries → Option Value
  | .nil => none
  | .cons key value rest => if p key then some value else rest.find? p

def Entries.length : Entries → Nat
  | .nil => 0
  | .cons _ _ rest => rest.length + 1

mutual

/-- Whether two values are equal up to the order of mappings. -/
def Value.same : Value → Value → Bool
  | .null, .null => true
  | .bool a, .bool b => a == b
  | .number a, .number b => a.same b
  | .string a, .string b => a == b
  | .sequence a, .sequence b => a.same b
  | .mapping a, .mapping b => a.length == b.length && a.within b
  | .tagged s a, .tagged t b => s == t && a.same b
  | _, _ => false

/-- Whether two rows of items are equal one by one. -/
def Items.same : Items → Items → Bool
  | .nil, .nil => true
  | .cons a as, .cons b bs => a.same b && as.same bs
  | _, _ => false

/-- Whether each entry is found among the others. -/
def Entries.within : Entries → Entries → Bool
  | .nil, _ => true
  | .cons key value rest, others =>
    (match others.find? (fun other => key.same other) with
      | some found => value.same found
      | none => false) && rest.within others

end

/-- Replaces the value under this key where it stands, or appends a new entry. -/
def Entries.insert (key value : Value) : Entries → Entries
  | .nil => .cons key value .nil
  | .cons k v rest => if k.same key then .cons k value rest else .cons k v (rest.insert key value)

namespace Value

/-- The text of a string, also below tags. -/
def asText? : Value → Option String
  | .string text => some text
  | .tagged _ value => value.asText?
  | _ => none

end Value

end ShellUnits
