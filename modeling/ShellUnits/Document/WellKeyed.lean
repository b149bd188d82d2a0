import ShellUnits.Document.Basic
import ShellUnits.Value.WellKeyed

/-!
Documents whose groups and options have each key once.

Like the entries of a mapping, children and options are lists that could repeat a key, and stand for
collections that never do. Those who rely on it ask for this property.

Main definition: `Document.WellKeyed`.
-/

namespace ShellUnits

mutual

/-- No group in the unit has a key twice. -/
def Node.WellKeyed : Node → Prop
  | .group _ children => children.WellKeyed
  | .command _ => True
  | .placeholder => True
  | .reference _ => True

/-- No key stands twice in the row or in a row below it. -/
def Children.WellKeyed : Children → Prop
  | .nil => True
  | .cons key node rest => key ∉ rest.keys ∧ node.WellKeyed ∧ rest.WellKeyed

end

mutual

instance Node.decidableWellKeyed : (node : Node) → Decidable node.WellKeyed
  | .group _ children => Children.decidableWellKeyed children
  | .command _ => .isTrue trivial
  | .placeholder => .isTrue trivial
  | .reference _ => .isTrue trivial

instance Children.decidableWellKeyed : (children : Children) → Decidable children.WellKeyed
  | .nil => .isTrue trivial
  | .cons _ node rest =>
    @instDecidableAnd _ _ _
      (@instDecidableAnd _ _ (Node.decidableWellKeyed node) (Children.decidableWellKeyed rest))

end

/-- No option, no group and no mapping among the options of the document has a key twice. -/
structure Document.WellKeyed (document : Document) : Prop where
  distinct : Keyed.Distinct document.options
  options : ∀ entry ∈ document.options, entry.2.WellKeyed
  units : document.units.children.WellKeyed

instance (document : Document) : Decidable document.WellKeyed :=
  decidable_of_iff
    (Keyed.Distinct document.options ∧ (∀ entry ∈ document.options, entry.2.WellKeyed) ∧
      document.units.children.WellKeyed)
    ⟨fun ⟨distinct, options, units⟩ => ⟨distinct, options, units⟩,
      fun ⟨distinct, options, units⟩ => ⟨distinct, options, units⟩⟩

theorem Children.WellKeyed.nodup : ∀ {children : Children}, children.WellKeyed → children.keys.Nodup
  | .nil, _ => List.nodup_nil
  | .cons _ _ _, ⟨fresh, _, after⟩ => List.nodup_cons.mpr ⟨fresh, after.nodup⟩

theorem Children.WellKeyed.of_get? {key : String} {node : Node} :
    ∀ {children : Children}, children.WellKeyed → children.get? key = some node → node.WellKeyed
  | .cons k child rest, ⟨_, below, after⟩, found => by
      simp only [Children.get?] at found
      split at found
      · exact Option.some.inj found ▸ below
      · exact after.of_get? found

end ShellUnits
