import ShellUnits.Value

/-!
Values whose mappings have each key once.

The lists that hold the entries of a mapping could repeat a key; a mapping never does. What must hold of a
value to stand for mappings is kept in this property, and those who rely on it ask for it.
-/

namespace ShellUnits

/-- The keys in order. -/
def Entries.keys (entries : Entries) : List Value :=
  entries.toList.map Prod.fst

mutual

/-- No mapping in the value has a key twice. -/
def Value.WellKeyed : Value → Prop
  | .null => True
  | .bool _ => True
  | .number _ => True
  | .string _ => True
  | .sequence items => items.WellKeyed
  | .mapping entries => entries.keys.Nodup ∧ entries.WellKeyed
  | .tagged _ value => value.WellKeyed

def Items.WellKeyed : Items → Prop
  | .nil => True
  | .cons item rest => item.WellKeyed ∧ rest.WellKeyed

/-- No mapping in the keys and values of the entries has a key twice. -/
def Entries.WellKeyed : Entries → Prop
  | .nil => True
  | .cons key value rest => key.WellKeyed ∧ value.WellKeyed ∧ rest.WellKeyed

end

mutual

instance Value.decidableWellKeyed : (value : Value) → Decidable value.WellKeyed
  | .null => .isTrue trivial
  | .bool _ => .isTrue trivial
  | .number _ => .isTrue trivial
  | .string _ => .isTrue trivial
  | .sequence items => Items.decidableWellKeyed items
  | .mapping entries => @instDecidableAnd _ _ _ (Entries.decidableWellKeyed entries)
  | .tagged _ value => Value.decidableWellKeyed value

instance Items.decidableWellKeyed : (items : Items) → Decidable items.WellKeyed
  | .nil => .isTrue trivial
  | .cons item rest => @instDecidableAnd _ _ (Value.decidableWellKeyed item) (Items.decidableWellKeyed rest)

instance Entries.decidableWellKeyed : (entries : Entries) → Decidable entries.WellKeyed
  | .nil => .isTrue trivial
  | .cons key value rest =>
    @instDecidableAnd _ _ (Value.decidableWellKeyed key)
      (@instDecidableAnd _ _ (Value.decidableWellKeyed value) (Entries.decidableWellKeyed rest))

end

end ShellUnits
