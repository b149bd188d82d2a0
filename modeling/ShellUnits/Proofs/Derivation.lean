import ShellUnits.Document.WellKeyed
import ShellUnits.Inherit
import ShellUnits.Naming
import ShellUnits.Proofs.Everywhere
import ShellUnits.Proofs.Walk

/-!
What deriving directories and names leaves behind.

Both passes walk the tree and never fail, so each is a function on trees: `Children.inherit` hands
directories down and makes groups of all other units, `Children.named` names the groups. Together they leave
a tree of groups in which every derived attribute has been written anew. So deriving does not depend on what
was derived before, and deriving twice is deriving once.

Main statements: `Group.assignPaths_fst`, `Group.assignNames_fst`, `Children.derive_withoutDerived`,
`Children.inherit_inherit`, `Children.inherit_named`, `Children.named_named`, `Children.derive_derive`.
-/

namespace ShellUnits

/-!
### The two passes as functions on trees
-/

mutual

/-- The unit as a group with its effective directory, below this inherited directory. -/
def Node.inherit (inherited : Option String) : Node → Node
  | .group attributes children =>
    let directory := effectiveDirectory inherited attributes.directory
    .group { attributes with workingDirectory := directory } (children.inherit directory)
  | .command text => .group { workingDirectory := nonEmpty inherited, command := some text } .nil
  | .placeholder => .group { workingDirectory := nonEmpty inherited } .nil
  | .reference ids =>
    .group { workingDirectory := nonEmpty inherited, command := some (formatReference ids) } .nil

/-- The children with their effective directories, in a group with this directory. -/
def Children.inherit (inherited : Option String) : Children → Children
  | .nil => .nil
  | .cons key node rest => .cons key (node.inherit inherited) (rest.inherit inherited)

end

mutual

/-- The unit under this key with its name, and with the names of all groups in it. -/
def Node.named (separator : Separator) (parent : Option String) (key : String) : Node → Node
  | .group attributes children =>
    let name := qualify separator parent key
    .group { attributes with qualifiedName := some name } (children.named separator (some name))
  | .command text => .command text
  | .placeholder => .placeholder
  | .reference ids => .reference ids

/-- The children of a group of this name with their names. -/
def Children.named (separator : Separator) (parent : Option String) : Children → Children
  | .nil => .nil
  | .cons key node rest => .cons key (node.named separator parent key) (rest.named separator parent)

end

/-- A walk whose visitor has no failures does not fail. -/
theorem Walked.result_eq_ok {σ : Type} (walked : Walked σ Empty) : walked.result = .ok () := by
  cases h : walked.result with
  | error impossible => exact impossible.elim
  | ok done => rfl

theorem Children.walk_pathAssigner_children :
    ∀ (children : Children) (inherited : Option String) (events : List Event),
      (children.walk pathAssigner inherited events).children = children.inherit inherited
  | .nil, _, _ => rfl
  | .cons key (.group attributes children) rest, inherited, events => by
      rw [Children.walk_cons pathAssigner_keepsDepth]
      simp only [pathAssigner, Walked.leave_of_ok (Walked.result_eq_ok _), Walked.prepend, Children.inherit,
        Node.inherit]
      rw [Children.walk_pathAssigner_children children, Children.walk_pathAssigner_children rest]
  | .cons key (.command text) rest, inherited, events => by
      rw [Children.walk_cons pathAssigner_keepsDepth]
      simp only [pathAssigner, Walked.prepend, Children.inherit, Node.inherit]
      rw [Children.walk_pathAssigner_children rest]
  | .cons key .placeholder rest, inherited, events => by
      rw [Children.walk_cons pathAssigner_keepsDepth]
      simp only [pathAssigner, Walked.prepend, Children.inherit, Node.inherit]
      rw [Children.walk_pathAssigner_children rest]
  | .cons key (.reference ids) rest, inherited, events => by
      rw [Children.walk_cons pathAssigner_keepsDepth]
      simp only [pathAssigner, Walked.prepend, Children.inherit, Node.inherit]
      rw [Children.walk_pathAssigner_children rest]

theorem Children.walk_nameAssigner_children (separator : Separator) :
    ∀ (children : Children) (parent : Option String) (events : List Event),
      (children.walk (nameAssigner separator) parent events).children = children.named separator parent
  | .nil, _, _ => rfl
  | .cons key (.group attributes children) rest, parent, events => by
      rw [Children.walk_cons (nameAssigner_keepsDepth separator)]
      simp only [nameAssigner, Walked.leave_of_ok (Walked.result_eq_ok _), Walked.prepend, Children.named,
        Node.named]
      rw [Children.walk_nameAssigner_children separator children, Children.walk_nameAssigner_children separator rest]
  | .cons key (.command text) rest, parent, events => by
      rw [Children.walk_cons (nameAssigner_keepsDepth separator)]
      simp only [nameAssigner, Walked.prepend, Children.named, Node.named]
      rw [Children.walk_nameAssigner_children separator rest]
  | .cons key .placeholder rest, parent, events => by
      rw [Children.walk_cons (nameAssigner_keepsDepth separator)]
      simp only [nameAssigner, Walked.prepend, Children.named, Node.named]
      rw [Children.walk_nameAssigner_children separator rest]
  | .cons key (.reference ids) rest, parent, events => by
      rw [Children.walk_cons (nameAssigner_keepsDepth separator)]
      simp only [nameAssigner, Walked.prepend, Children.named, Node.named]
      rw [Children.walk_nameAssigner_children separator rest]

/-- The tree after directories have been handed down from the root's own override. -/
theorem Group.assignPaths_fst (units : Group) :
    units.assignPaths.1 =
      ⟨{ units.attributes with workingDirectory := nonEmpty units.attributes.directory },
        units.children.inherit (nonEmpty units.attributes.directory)⟩ := by
  simp only [Group.assignPaths, Group.walk_eq_walk_children, Children.walk_pathAssigner_children]

/-- The tree after naming; the root keeps the name it has. -/
theorem Group.assignNames_fst (units : Group) (separator : Separator) :
    (units.assignNames separator).1 = { units with children := units.children.named separator none } := by
  simp only [Group.assignNames, Group.walk_eq_walk_children, Children.walk_nameAssigner_children]

/-!
### Both passes at once
-/

mutual

/-- The unit under this key with all its derived attributes, in a group of this name with this directory. -/
def Node.derive (separator : Separator) (directory parent : Option String) (key : String) : Node → Node
  | .group attributes children =>
    let directory := effectiveDirectory directory attributes.directory
    let name := qualify separator parent key
    .group { attributes with workingDirectory := directory, qualifiedName := some name }
      (children.derive separator directory (some name))
  | .command text =>
    .group { workingDirectory := nonEmpty directory, qualifiedName := some (qualify separator parent key),
             command := some text } .nil
  | .placeholder =>
    .group { workingDirectory := nonEmpty directory, qualifiedName := some (qualify separator parent key) } .nil
  | .reference ids =>
    .group { workingDirectory := nonEmpty directory, qualifiedName := some (qualify separator parent key),
             command := some (formatReference ids) } .nil

/-- The children with all their derived attributes, in a group of this name with this directory. -/
def Children.derive (separator : Separator) (directory parent : Option String) : Children → Children
  | .nil => .nil
  | .cons key node rest =>
    .cons key (node.derive separator directory parent key) (rest.derive separator directory parent)

end

theorem Children.derive_eachBy (separator : Separator) (directory parent : Option String) :
    Children.EachBy (Children.derive separator directory parent) (Node.derive separator directory parent) :=
  ⟨rfl, fun _ _ _ => rfl⟩

@[simp] theorem Children.keys_of_derive (separator : Separator) (directory parent : Option String)
    (children : Children) : (children.derive separator directory parent).keys = children.keys :=
  (Children.derive_eachBy separator directory parent).keys children

mutual

theorem Node.named_inherit (separator : Separator) (directory parent : Option String) (key : String) :
    ∀ node : Node,
      (node.inherit directory).named separator parent key = node.derive separator directory parent key
  | .group attributes children => by
      simp only [Node.inherit, Node.named, Node.derive, Children.named_inherit separator _ _ children]
  | .command text => rfl
  | .placeholder => rfl
  | .reference ids => rfl

/-- Naming after handing directories down is deriving. -/
theorem Children.named_inherit (separator : Separator) (directory parent : Option String) :
    ∀ children : Children,
      (children.inherit directory).named separator parent = children.derive separator directory parent
  | .nil => rfl
  | .cons key node rest => by
      simp only [Children.inherit, Children.named, Children.derive,
        Node.named_inherit separator directory parent key node,
        Children.named_inherit separator directory parent rest]

end

/-!
### What was derived before does not count
-/

/-- The attributes as written in a document. -/
def Attributes.withoutDerived (attributes : Attributes) : Attributes :=
  { attributes with workingDirectory := none, qualifiedName := none }

mutual

/-- The unit without any derived attributes. -/
def Node.withoutDerived : Node → Node
  | .group attributes children => .group attributes.withoutDerived children.withoutDerived
  | .command text => .command text
  | .placeholder => .placeholder
  | .reference ids => .reference ids

/-- The children without any derived attributes. -/
def Children.withoutDerived : Children → Children
  | .nil => .nil
  | .cons key node rest => .cons key node.withoutDerived rest.withoutDerived

end

/-- The tree without any derived attributes. -/
def Group.withoutDerived (group : Group) : Group :=
  ⟨group.attributes.withoutDerived, group.children.withoutDerived⟩

mutual

theorem Node.derive_withoutDerived (separator : Separator) (directory parent : Option String) (key : String) :
    ∀ node : Node,
      node.withoutDerived.derive separator directory parent key = node.derive separator directory parent key
  | .group attributes children => by
      simp only [Node.withoutDerived, Attributes.withoutDerived, Node.derive,
        Children.derive_withoutDerived separator _ _ children]
  | .command text => rfl
  | .placeholder => rfl
  | .reference ids => rfl

/-- Every derived attribute is written anew, so the old ones leave no trace. -/
theorem Children.derive_withoutDerived (separator : Separator) (directory parent : Option String) :
    ∀ children : Children,
      children.withoutDerived.derive separator directory parent = children.derive separator directory parent
  | .nil => rfl
  | .cons key node rest => by
      simp only [Children.withoutDerived, Children.derive,
        Node.derive_withoutDerived separator directory parent key node,
        Children.derive_withoutDerived separator directory parent rest]

end

mutual

theorem Node.withoutDerived_named (separator : Separator) (key : String) :
    ∀ (node : Node) (parent : Option String),
      (node.named separator parent key).withoutDerived = node.withoutDerived
  | .group _ children, _ => by
      rw [Node.named, Node.withoutDerived, Node.withoutDerived, Children.withoutDerived_named separator children]
      rfl
  | .command _, _ => rfl
  | .placeholder, _ => rfl
  | .reference _, _ => rfl

/-- Naming changes derived attributes only. -/
theorem Children.withoutDerived_named (separator : Separator) :
    ∀ (children : Children) (parent : Option String),
      (children.named separator parent).withoutDerived = children.withoutDerived
  | .nil, _ => rfl
  | .cons key node rest, parent => by
      rw [Children.named, Children.withoutDerived, Children.withoutDerived,
        Node.withoutDerived_named separator key node parent, Children.withoutDerived_named separator rest parent]

end

/-!
### Deriving again
-/

/-- A unit without an override of its own has the inherited directory. -/
theorem effectiveDirectory_none (inherited : Option String) :
    effectiveDirectory inherited none = nonEmpty inherited := rfl

mutual

theorem Node.inherit_inherit : ∀ (node : Node) (inherited : Option String),
    (node.inherit inherited).inherit inherited = node.inherit inherited
  | .group _ children, _ => by rw [Node.inherit, Node.inherit, Children.inherit_inherit children]
  | .command _, _ => by rw [Node.inherit, Node.inherit, Children.inherit, effectiveDirectory_none]
  | .placeholder, _ => by rw [Node.inherit, Node.inherit, Children.inherit, effectiveDirectory_none]
  | .reference _, _ => by rw [Node.inherit, Node.inherit, Children.inherit, effectiveDirectory_none]

/-- Directories come from overrides, which the pass keeps apart, so none is joined twice. -/
theorem Children.inherit_inherit : ∀ (children : Children) (inherited : Option String),
    (children.inherit inherited).inherit inherited = children.inherit inherited
  | .nil, _ => rfl
  | .cons _ node rest, inherited => by
      rw [Children.inherit, Children.inherit, Node.inherit_inherit node inherited,
        Children.inherit_inherit rest inherited]

end

mutual

theorem Node.inherit_named (separator : Separator) (key : String) :
    ∀ {node : Node} {inherited : Option String} (parent : Option String), node.inherit inherited = node →
      (node.named separator parent key).inherit inherited = node.named separator parent key
  | .group attributes children, inherited, parent, settled => by
      rw [Node.inherit, Node.group.injEq] at settled
      obtain ⟨directory, below⟩ := settled
      rw [Node.named, Node.inherit, Children.inherit_named separator _ below, ← directory]

/-- Where directories are in place, naming leaves them so. -/
theorem Children.inherit_named (separator : Separator) :
    ∀ {children : Children} {inherited : Option String} (parent : Option String),
      children.inherit inherited = children →
        (children.named separator parent).inherit inherited = children.named separator parent
  | .nil, _, _, _ => rfl
  | .cons key _ _, _, parent, settled => by
      rw [Children.inherit, Children.cons.injEq] at settled
      obtain ⟨-, here, after⟩ := settled
      rw [Children.named, Children.inherit, Node.inherit_named separator key parent here,
        Children.inherit_named separator parent after]

end

/-- In a derived tree all directories are in place. -/
theorem Children.inherit_derive (separator : Separator) (directory parent : Option String) (children : Children) :
    (children.derive separator directory parent).inherit directory = children.derive separator directory parent := by
  rw [← Children.named_inherit]
  exact Children.inherit_named separator parent (Children.inherit_inherit children directory)

mutual

theorem Node.named_named (separator other : Separator) (key : String) :
    ∀ (node : Node) (parent otherParent : Option String),
      (node.named other otherParent key).named separator parent key = node.named separator parent key
  | .group _ children, _, _ => by
      rw [Node.named, Node.named, Node.named, Children.named_named separator other children]
  | .command _, _, _ => rfl
  | .placeholder, _, _ => rfl
  | .reference _, _, _ => rfl

/-- Names are made of the keys, not of names that were given before. -/
theorem Children.named_named (separator other : Separator) :
    ∀ (children : Children) (parent otherParent : Option String),
      (children.named other otherParent).named separator parent = children.named separator parent
  | .nil, _, _ => rfl
  | .cons key node rest, parent, otherParent => by
      rw [Children.named, Children.named, Children.named,
        Node.named_named separator other key node parent otherParent,
        Children.named_named separator other rest parent otherParent]

end

/-- In a derived tree all names are in place. -/
theorem Children.named_derive (separator : Separator) (directory parent : Option String) (children : Children) :
    (children.derive separator directory parent).named separator parent =
      children.derive separator directory parent := by
  rw [← Children.named_inherit, Children.named_named]

/-- Neither pass finds anything to change in a derived tree, so deriving it again changes nothing. -/
theorem Children.derive_derive (separator : Separator) (directory parent : Option String) (children : Children) :
    (children.derive separator directory parent).derive separator directory parent =
      children.derive separator directory parent := by
  rw [← Children.named_inherit, Children.inherit_derive, Children.named_derive]

/-!
### What holds everywhere in a derived tree
-/

mutual

theorem Node.allGroups_derive (separator : Separator) (directory parent : Option String) (key : String) :
    ∀ node : Node,
      (node.derive separator directory parent key).Everywhere fun _ below => below.asGroup?.isSome
  | .group _ children => Children.allGroups_derive separator _ _ children
  | .command _ => trivial
  | .placeholder => trivial
  | .reference _ => trivial

/-- Deriving leaves no unit that is not a group. -/
theorem Children.allGroups_derive (separator : Separator) (directory parent : Option String) :
    ∀ children : Children, (children.derive separator directory parent).AllGroups
  | .nil => trivial
  | .cons key node rest =>
      ⟨by cases node <;> rfl, Node.allGroups_derive separator directory parent key node,
        Children.allGroups_derive separator directory parent rest⟩

end

section

variable {allowed : String → Prop}

mutual

theorem Node.keys_derive (separator : Separator) (directory parent : Option String) (key : String) :
    ∀ {node : Node}, (node.Everywhere fun key _ => allowed key) →
      (node.derive separator directory parent key).Everywhere fun key _ => allowed key
  | .group _ _, below => Children.keys_derive separator _ _ below
  | .command _, _ => trivial
  | .placeholder, _ => trivial
  | .reference _, _ => trivial

/-- Deriving brings no new keys. -/
theorem Children.keys_derive (separator : Separator) (directory parent : Option String) :
    ∀ {children : Children}, (children.Everywhere fun key _ => allowed key) →
      (children.derive separator directory parent).Everywhere fun key _ => allowed key
  | .nil, _ => trivial
  | .cons key _ _, ⟨here, below, after⟩ =>
      ⟨here, Node.keys_derive separator directory parent key below,
        Children.keys_derive separator directory parent after⟩

end

end

mutual

theorem Node.WellKeyed.derive (separator : Separator) (directory parent : Option String) (key : String) :
    ∀ {node : Node}, node.WellKeyed → (node.derive separator directory parent key).WellKeyed
  | .group _ _, wellKeyed => Children.WellKeyed.derive separator _ _ wellKeyed
  | .command _, _ => trivial
  | .placeholder, _ => trivial
  | .reference _, _ => trivial

/-- Deriving keeps the keys of each row, so they stay distinct. -/
theorem Children.WellKeyed.derive (separator : Separator) (directory parent : Option String) :
    ∀ {children : Children}, children.WellKeyed → (children.derive separator directory parent).WellKeyed
  | .nil, _ => trivial
  | .cons key _ _, ⟨fresh, below, after⟩ =>
      ⟨by simpa using fresh, below.derive separator directory parent key, after.derive separator directory parent⟩

end

end ShellUnits
