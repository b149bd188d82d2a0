import ShellUnits.Proofs.Lookup

/-!
Properties of all units below a unit.

Main statements: `Children.Everywhere.imp`, `Group.everywhere_of_get?`, `Group.allowed_of_get?`.
-/

namespace ShellUnits

mutual

/-- All units below this one have the property, each with its key. -/
def Node.Everywhere (holds : String → Node → Prop) : Node → Prop
  | .group _ children => children.Everywhere holds
  | .command _ => True
  | .placeholder => True
  | .reference _ => True

/-- All units of the row and below it have the property, each with its key. -/
def Children.Everywhere (holds : String → Node → Prop) : Children → Prop
  | .nil => True
  | .cons key node rest => holds key node ∧ node.Everywhere holds ∧ rest.Everywhere holds

end

/-- All units are groups. -/
def Children.AllGroups (children : Children) : Prop :=
  children.Everywhere fun _ node => node.asGroup?.isSome

/-- No key is that of an attribute. -/
def Children.Unreserved (children : Children) : Prop :=
  children.Everywhere fun key _ => isReservedKey key = false

section

variable {holds also : String → Node → Prop}

mutual

theorem Node.Everywhere.imp {goal : String → Node → Prop}
    (implies : ∀ key node, holds key node → also key node → goal key node) :
    ∀ {node : Node}, node.Everywhere holds → node.Everywhere also → node.Everywhere goal
  | .group _ _, first, second => Children.Everywhere.imp implies first second
  | .command _, _, _ => trivial
  | .placeholder, _, _ => trivial
  | .reference _, _, _ => trivial

theorem Children.Everywhere.imp {goal : String → Node → Prop}
    (implies : ∀ key node, holds key node → also key node → goal key node) :
    ∀ {children : Children}, children.Everywhere holds → children.Everywhere also → children.Everywhere goal
  | .nil, _, _ => trivial
  | .cons key node _, ⟨here, below, after⟩, ⟨alsoHere, alsoBelow, alsoAfter⟩ =>
      ⟨implies key node here alsoHere, below.imp implies alsoBelow, after.imp implies alsoAfter⟩

end

theorem Children.Everywhere.of_get? {key : String} {node : Node} :
    ∀ {children : Children}, children.Everywhere holds → children.get? key = some node → node.Everywhere holds
  | .cons k child rest, ⟨_, below, after⟩, found => by
      simp only [Children.get?] at found
      split at found
      · exact Option.some.inj found ▸ below
      · exact after.of_get? found

/-- What holds everywhere in a tree holds below each unit that can be addressed in it. -/
theorem Group.everywhere_of_get? {group : Group} {path : List String} {target : Node}
    (everywhere : group.children.Everywhere holds) (found : group.get? path = some target) :
    target.Everywhere holds :=
  Group.get?_of_handedDown (fun _ _ _ _ => Children.Everywhere.of_get?) (fun _ _ => everywhere.of_get?) found

theorem Children.Everywhere.here_of_get? {key : String} {node : Node} :
    ∀ {children : Children}, children.Everywhere holds → children.get? key = some node → holds key node
  | .cons k child rest, ⟨here, _, after⟩, found => by
      simp only [Children.get?] at found
      split at found
      · rename_i same
        exact same ▸ Option.some.inj found ▸ here
      · exact after.here_of_get? found

end

section

variable {allowed : String → Prop} {target : Node}

theorem Node.allowed_of_follow :
    ∀ {path : List String} {node : Node}, (node.Everywhere fun key _ => allowed key) →
      node.follow path = some target → ∀ key ∈ path, allowed key
  | [], _, _, _ => by simp
  | key :: rest, .group attributes children, below, found => by
      obtain ⟨child, there, found⟩ := Option.bind_eq_some_iff.mp found
      have further : ∀ key ∈ rest, allowed key := Node.allowed_of_follow (Children.Everywhere.of_get? below there) found
      exact List.forall_mem_cons.mpr ⟨Children.Everywhere.here_of_get? below there, further⟩

/-- A unit can be addressed only by keys of the tree. -/
theorem Group.allowed_of_get? {group : Group} {path : List String}
    (everywhere : group.children.Everywhere fun key _ => allowed key) (found : group.get? path = some target) :
    ∀ key ∈ path, allowed key := by
  cases path with
  | nil => simp
  | cons key rest =>
      rw [Group.get?_cons] at found
      have below : group.toNode.Everywhere fun key _ => allowed key := everywhere
      exact Node.allowed_of_follow below found

end

end ShellUnits
