import ShellUnits.Document.Basic

/-!
Equality of documents up to order.

Options and children are compared without regard to the order of their keys, at every depth; everything
else must agree.

Main definitions: `Node.same`, `Group.same`, `Document.same`.
-/

namespace ShellUnits

def Children.length : Children → Nat
  | .nil => 0
  | .cons _ _ rest => rest.length + 1

mutual

/-- Whether two units are equal up to the order of children. -/
def Node.same : Node → Node → Bool
  | .group a children, .group b others =>
    a == b && children.length == others.length && children.within others
  | .command a, .command b => a == b
  | .placeholder, .placeholder => true
  | .reference a, .reference b => a == b
  | _, _ => false

/-- Whether each child is found among the others. -/
def Children.within : Children → Children → Bool
  | .nil, _ => true
  | .cons key node rest, others =>
    (match others.get? key with
      | some found => node.same found
      | none => false) && rest.within others

end

/-- Whether two groups are equal up to the order of children. -/
def Group.same (a b : Group) : Bool := a.toNode.same b.toNode

/-- Whether two documents are equal up to the order of options and children. -/
def Document.same (a b : Document) : Bool :=
  a.options.length == b.options.length &&
    a.options.all (fun entry => match Keyed.get? entry.1 b.options with
      | some value => entry.2.same value
      | none => false) &&
    a.units.same b.units

end ShellUnits
