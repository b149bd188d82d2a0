import ShellUnits.Document.WellKeyed
import ShellUnits.Proofs.Everywhere
import ShellUnits.Proofs.Walk
import ShellUnits.Resolve

/-!
What resolving references leaves behind.

The resolver rewrites the tree while it walks it. Here its outcome is described without a walk: the
references of the raw tree in pre-order decide how it ends (`Group.firstFailure?`), and what it leaves is the
raw tree with the references in front of the failing one replaced (`Group.expandFirst`). Where none fails, these
are all references, and the expanded tree is left (`Group.expand`). In any case each unit that is left is the old
one or stands where a reference stood and is a copy of the unit that the ids address (`Node.CopiedFrom`).

Main statements: `Group.resolveReferences_result`, `Group.resolveReferences_left`,
`Group.resolveReferences_left_of_ok`, `Group.resolveReferences_copied`.
-/

namespace ShellUnits

/-!
### The references of a tree
-/

/-- A reference of a tree: where it stands and the ids it holds. -/
structure PlacedReference where
  location : List String
  ids : List String
deriving DecidableEq, Repr

mutual

/-- The references in a unit at this location, in pre-order. -/
def Node.references (location : List String) : Node → List PlacedReference
  | .group _ children => children.references location
  | .command _ => []
  | .placeholder => []
  | .reference ids => [⟨location, ids⟩]

/-- The references in a row of children of the group at this location, in pre-order. -/
def Children.references (location : List String) : Children → List PlacedReference
  | .nil => []
  | .cons key node rest => node.references (location ++ [key]) ++ rest.references location

end

/-- The references of a whole tree, in pre-order. -/
def Group.references (group : Group) : List PlacedReference :=
  group.children.references []

/-- Why a reference cannot be replaced by its target in `raw`, if it cannot. -/
def Group.failure? (raw : Group) (reference : PlacedReference) : Option CompileError :=
  if reference.ids = [] then some (.emptyReferencePath reference.location)
  else match raw.lookup reference.ids with
    | .error failure => some failure
    | .ok _ => none

/-- The failure of the first reference of the tree that cannot be replaced, if there is one. -/
def Group.firstFailure? (group : Group) : Option CompileError :=
  group.references.findSome? group.failure?

/-- A reference can be replaced exactly when its ids address a unit. -/
theorem Group.failure?_eq_none_iff {raw : Group} {reference : PlacedReference} :
    raw.failure? reference = none ↔ ∃ target, raw.get? reference.ids = some target := by
  unfold Group.failure?
  split
  · rename_i noIds
    simp [noIds, Group.get?]
  · cases h : raw.lookup reference.ids with
    | error failure =>
        simp only [reduceCtorEq, false_iff, not_exists]
        intro target found
        rw [Group.lookup_eq_ok_iff.mpr found] at h
        simp at h
    | ok target => simpa using ⟨target, Group.lookup_eq_ok_iff.mp h⟩

/-- Nothing stands in the way of resolving exactly when all references address units. -/
theorem Group.firstFailure?_eq_none_iff {group : Group} :
    group.firstFailure? = none ↔
      ∀ reference ∈ group.references, ∃ target, group.get? reference.ids = some target := by
  simp only [Group.firstFailure?, List.findSome?_eq_none_iff, Group.failure?_eq_none_iff]

mutual

/-- A reference stands below the location at which the references of a tree are counted from. -/
theorem Node.references_location_ne_nil {location : List String} (ne : location ≠ []) :
    ∀ (node : Node) {reference : PlacedReference},
      reference ∈ node.references location → reference.location ≠ []
  | .group _ children, _, mem => Children.references_location_ne_nil children (by simpa [Node.references] using mem)
  | .command _, _, mem => by simp [Node.references] at mem
  | .placeholder, _, mem => by simp [Node.references] at mem
  | .reference ids, _, mem => by
      simp only [Node.references, List.mem_singleton] at mem
      simp [mem, ne]

/-- No reference stands at the root. -/
theorem Children.references_location_ne_nil {location : List String} :
    ∀ (children : Children) {reference : PlacedReference},
      reference ∈ children.references location → reference.location ≠ []
  | .nil, _, mem => by simp [Children.references] at mem
  | .cons key node rest, _, mem => by
      simp only [Children.references, List.mem_append] at mem
      rcases mem with first | later
      · exact Node.references_location_ne_nil (by simp) node first
      · exact Children.references_location_ne_nil rest later

end

mutual

/-- The ids of the references in a unit, in pre-order. -/
def Node.referenceIds : Node → List (List String)
  | .group _ children => children.referenceIds
  | .command _ => []
  | .placeholder => []
  | .reference ids => [ids]

/-- The ids of the references in a row of children, in pre-order. -/
def Children.referenceIds : Children → List (List String)
  | .nil => []
  | .cons _ node rest => node.referenceIds ++ rest.referenceIds

end

mutual

theorem Node.map_ids_references (location : List String) :
    ∀ node : Node, (node.references location).map PlacedReference.ids = node.referenceIds
  | .group _ children => Children.map_ids_references location children
  | .command _ => rfl
  | .placeholder => rfl
  | .reference _ => rfl

/-- The ids of references do not depend on where the row stands. -/
theorem Children.map_ids_references (location : List String) :
    ∀ children : Children, (children.references location).map PlacedReference.ids = children.referenceIds
  | .nil => rfl
  | .cons key node rest => by
      rw [Children.references, Children.referenceIds, List.map_append,
        Node.map_ids_references (location ++ [key]) node, Children.map_ids_references location rest]

end

theorem Children.length_references (location : List String) (children : Children) :
    (children.references location).length = children.referenceIds.length := by
  rw [← Children.map_ids_references location, List.length_map]

/-- The references of a unit are among those of the row in which it is found. -/
theorem Children.references_of_get? {location : List String} {key : String} {node : Node} :
    ∀ {children : Children}, children.get? key = some node →
      node.references (location ++ [key]) ⊆ children.references location
  | .cons k first rest, there => by
      simp only [Children.get?] at there
      split at there
      · rename_i here
        obtain rfl := Option.some.inj there
        rw [Children.references, here]
        exact List.subset_append_left _ _
      · exact List.Subset.trans (Children.references_of_get? there) (List.subset_append_right _ _)

/-!
### The expanded tree
-/

mutual

/-- The unit with each reference in it replaced by the unit of `raw` that it addresses. What is put in is not
expanded again. -/
def Node.expand (raw : Group) : Node → Node
  | .group attributes children => .group attributes (children.expand raw)
  | .command text => .command text
  | .placeholder => .placeholder
  | .reference ids => (raw.get? ids).getD (.reference ids)

/-- The children with each reference in them replaced. -/
def Children.expand (raw : Group) : Children → Children
  | .nil => .nil
  | .cons key node rest => .cons key (node.expand raw) (rest.expand raw)

end

theorem Children.expand_eachBy (raw : Group) :
    Children.EachBy (Children.expand raw) fun _ node => node.expand raw :=
  ⟨rfl, fun _ _ _ => rfl⟩

@[simp] theorem Children.keys_of_expand (raw : Group) (children : Children) :
    (children.expand raw).keys = children.keys :=
  (Children.expand_eachBy raw).keys children

/-- The tree with each reference replaced by a copy of the unit that it addresses in the tree itself. -/
def Group.expand (group : Group) : Group :=
  { group with children := group.children.expand group }

mutual

theorem Node.referenceIds_expand_eq (raw : Group) :
    ∀ node : Node, (node.expand raw).referenceIds =
      node.referenceIds.flatMap fun ids => ((raw.get? ids).getD (.reference ids)).referenceIds
  | .group _ children => Children.referenceIds_expand_eq raw children
  | .command _ => rfl
  | .placeholder => rfl
  | .reference _ => by rw [Node.expand, Node.referenceIds, List.flatMap_singleton]

/-- Each reference leaves the references of its target in its place. -/
theorem Children.referenceIds_expand_eq (raw : Group) :
    ∀ children : Children, (children.expand raw).referenceIds =
      children.referenceIds.flatMap fun ids => ((raw.get? ids).getD (.reference ids)).referenceIds
  | .nil => rfl
  | .cons _ node rest => by
      rw [Children.expand, Children.referenceIds, Children.referenceIds, List.flatMap_append,
        Node.referenceIds_expand_eq raw node, Children.referenceIds_expand_eq raw rest]

end

/-!
### The first references of a tree
-/

mutual

/-- The unit with the first `count` references in it, in pre-order, replaced by the units of `raw` that they
address. -/
def Node.expandFirst (raw : Group) (count : Nat) : Node → Node
  | .group attributes children => .group attributes (children.expandFirst raw count)
  | .command text => .command text
  | .placeholder => .placeholder
  | .reference ids => if count = 0 then .reference ids else (raw.get? ids).getD (.reference ids)

/-- The children with the first `count` references in them replaced; those of a unit come before those of the
units behind it. -/
def Children.expandFirst (raw : Group) (count : Nat) : Children → Children
  | .nil => .nil
  | .cons key node rest =>
    .cons key (node.expandFirst raw count) (rest.expandFirst raw (count - node.referenceIds.length))

end

/-- The tree with its first `count` references replaced by copies of the units that they address in the tree
itself. -/
def Group.expandFirst (group : Group) (count : Nat) : Group :=
  { group with children := group.children.expandFirst group count }

section

variable (raw : Group)

mutual

theorem Node.expandFirst_zero : ∀ node : Node, node.expandFirst raw 0 = node
  | .group _ children => by rw [Node.expandFirst, Children.expandFirst_zero children]
  | .command _ => rfl
  | .placeholder => rfl
  | .reference _ => rfl

/-- Where no reference is to be replaced, nothing changes. -/
theorem Children.expandFirst_zero : ∀ children : Children, children.expandFirst raw 0 = children
  | .nil => rfl
  | .cons _ node rest => by
      rw [Children.expandFirst, Nat.zero_sub, Node.expandFirst_zero node, Children.expandFirst_zero rest]

end

mutual

theorem Node.expandFirst_of_le : ∀ (node : Node) {count : Nat}, node.referenceIds.length ≤ count →
    node.expandFirst raw count = node.expand raw
  | .group _ children, _, enough => by
      rw [Node.expandFirst, Node.expand, Children.expandFirst_of_le children enough]
  | .command _, _, _ => rfl
  | .placeholder, _, _ => rfl
  | .reference _, count, enough => by
      have notNone : count ≠ 0 := Nat.ne_of_gt enough
      rw [Node.expandFirst, if_neg notNone, Node.expand]

/-- Where all references are to be replaced, the row is expanded. -/
theorem Children.expandFirst_of_le : ∀ (children : Children) {count : Nat},
    children.referenceIds.length ≤ count → children.expandFirst raw count = children.expand raw
  | .nil, _, _ => rfl
  | .cons _ node rest, count, enough => by
      rw [Children.referenceIds, List.length_append] at enough
      have first : node.referenceIds.length ≤ count := by omega
      have others : rest.referenceIds.length ≤ count - node.referenceIds.length := by omega
      rw [Children.expandFirst, Children.expand, Node.expandFirst_of_le node first,
        Children.expandFirst_of_le rest others]

end

end

/-!
### Keys and groups of the expanded tree
-/

section

variable {raw : Group} {allowed : String → Prop}

mutual

theorem Node.keys_expand (inRaw : raw.children.Everywhere fun key _ => allowed key) :
    ∀ {node : Node}, (node.Everywhere fun key _ => allowed key) →
      (node.expand raw).Everywhere fun key _ => allowed key
  | .group _ _, below => Children.keys_expand inRaw below
  | .command _, _ => trivial
  | .placeholder, _ => trivial
  | .reference ids, _ => by
      simp only [Node.expand]
      cases found : raw.get? ids with
      | none => trivial
      | some target => exact Group.everywhere_of_get? inRaw found

/-- Expanding brings no keys that are not in the raw tree. -/
theorem Children.keys_expand (inRaw : raw.children.Everywhere fun key _ => allowed key) :
    ∀ {children : Children}, (children.Everywhere fun key _ => allowed key) →
      (children.expand raw).Everywhere fun key _ => allowed key
  | .nil, _ => trivial
  | .cons _ _ _, ⟨here, below, after⟩ =>
      ⟨here, Node.keys_expand inRaw below, Children.keys_expand inRaw after⟩

end

end

mutual

theorem Node.WellKeyed.expand {raw : Group} (rawWellKeyed : raw.children.WellKeyed) :
    ∀ {node : Node}, node.WellKeyed → (node.expand raw).WellKeyed
  | .group _ _, wellKeyed => Children.WellKeyed.expand rawWellKeyed wellKeyed
  | .command _, _ => trivial
  | .placeholder, _ => trivial
  | .reference ids, _ => by
      rw [Node.expand]
      cases addressed : raw.get? ids with
      | none => trivial
      | some target =>
          exact Group.get?_of_handedDown (fun _ _ _ _ => Children.WellKeyed.of_get?)
            (fun _ _ => rawWellKeyed.of_get?) addressed

/-- Copies have their keys from the raw tree, where they are distinct. -/
theorem Children.WellKeyed.expand {raw : Group} (rawWellKeyed : raw.children.WellKeyed) :
    ∀ {children : Children}, children.WellKeyed → (children.expand raw).WellKeyed
  | .nil, _ => trivial
  | .cons _ _ _, ⟨fresh, below, after⟩ =>
      ⟨by simpa using fresh, Node.WellKeyed.expand rawWellKeyed below, Children.WellKeyed.expand rawWellKeyed after⟩

end

/-- Where all units are groups, nothing is to be replaced. -/
theorem Children.references_of_allGroups {location : List String} :
    ∀ {children : Children}, children.AllGroups → children.references location = []
  | .nil, _ => rfl
  | .cons _ (.group _ _) _, ⟨_, below, after⟩ => by
      simp only [Children.references, Node.references, Children.references_of_allGroups below,
        Children.references_of_allGroups after, List.append_nil]

theorem Children.expand_of_allGroups (raw : Group) :
    ∀ {children : Children}, children.AllGroups → children.expand raw = children
  | .nil, _ => rfl
  | .cons _ (.group _ _) _, ⟨_, below, after⟩ => by
      simp only [Children.expand, Node.expand, Children.expand_of_allGroups raw below,
        Children.expand_of_allGroups raw after]

/-!
### Copies in the place of references
-/

mutual

/-- The second unit is the first one with some references replaced by the units of `raw` that they address.
All else is as it was: attributes, keys, order, commands and placeholders. -/
inductive Node.CopiedFrom (raw : Group) : Node → Node → Prop where
  | same (node : Node) : Node.CopiedFrom raw node node
  | copy {ids : List String} {target : Node} (found : raw.get? ids = some target) :
      Node.CopiedFrom raw (.reference ids) target
  | group (attributes : Attributes) {children copied : Children}
      (below : Children.CopiedFrom raw children copied) :
      Node.CopiedFrom raw (.group attributes children) (.group attributes copied)

/-- Child by child, the second row is the first one with some references replaced. -/
inductive Children.CopiedFrom (raw : Group) : Children → Children → Prop where
  | nil : Children.CopiedFrom raw .nil .nil
  | cons (key : String) {node copiedNode : Node} {rest copiedRest : Children}
      (first : Node.CopiedFrom raw node copiedNode)
      (others : Children.CopiedFrom raw rest copiedRest) :
      Children.CopiedFrom raw (.cons key node rest) (.cons key copiedNode copiedRest)

end

mutual

theorem Node.copiedFrom_expandFirst (raw : Group) :
    ∀ (node : Node) (count : Nat), node.CopiedFrom raw (node.expandFirst raw count)
  | .group attributes children, count => .group attributes (Children.copiedFrom_expandFirst raw children count)
  | .command _, _ => .same _
  | .placeholder, _ => .same _
  | .reference ids, count => by
      rw [Node.expandFirst]
      split
      · exact .same _
      · cases found : raw.get? ids with
        | none => exact .same _
        | some target => exact .copy found

/-- Replacing the first references puts copies in the place of references and does nothing else. -/
theorem Children.copiedFrom_expandFirst (raw : Group) :
    ∀ (children : Children) (count : Nat), children.CopiedFrom raw (children.expandFirst raw count)
  | .nil, _ => .nil
  | .cons key node rest, count =>
      .cons key (Node.copiedFrom_expandFirst raw node count) (Children.copiedFrom_expandFirst raw rest _)

end

/-!
### The resolver, unit by unit
-/

section Resolver

variable (raw : Group) (location : List String) (events : List Event)

/-- A group is walked at its own location before its siblings. -/
theorem Children.walk_resolver_group (key : String) (attributes : Attributes) (children rest : Children) :
    (Children.cons key (.group attributes children) rest).walk (resolver raw) location events =
      (children.walk (resolver raw) (location ++ [key]) events).leave key attributes rest
        (rest.walk (resolver raw) location) :=
  Children.walk_cons (resolver_keepsDepth raw) location key (.group attributes children) rest events

theorem Children.walk_resolver_command (key text : String) (rest : Children) :
    (Children.cons key (.command text) rest).walk (resolver raw) location events =
      (rest.walk (resolver raw) location events).prepend key (.command text) :=
  Children.walk_cons (resolver_keepsDepth raw) location key (.command text) rest events

theorem Children.walk_resolver_placeholder (key : String) (rest : Children) :
    (Children.cons key .placeholder rest).walk (resolver raw) location events =
      (rest.walk (resolver raw) location events).prepend key .placeholder :=
  Children.walk_cons (resolver_keepsDepth raw) location key .placeholder rest events

/-- A reference without a failure is replaced by its target, and the target is not walked. -/
theorem Children.walk_resolver_reference_of_found {ids : List String} {target : Node}
    (found : raw.get? ids = some target) (key : String) (rest : Children) :
    (Children.cons key (.reference ids) rest).walk (resolver raw) location events =
      (rest.walk (resolver raw) location (events ++ [.resolved key ids])).prepend key target := by
  have someIds : ids ≠ [] := by
    rintro rfl
    simp [Group.get?] at found
  rw [Children.walk_cons (resolver_keepsDepth raw)]
  simp only [resolver, someIds, if_false, Group.lookup_eq_ok_iff.mpr found]

/-- A reference with a failure ends the walk and stays. -/
theorem Children.walk_resolver_reference_of_failure {ids : List String} {key : String} {failure : CompileError}
    (fails : raw.failure? ⟨location ++ [key], ids⟩ = some failure) (rest : Children) :
    (Children.cons key (.reference ids) rest).walk (resolver raw) location events =
      ⟨events, .cons key (.reference ids) rest, .error failure⟩ := by
  rw [Children.walk_cons (resolver_keepsDepth raw)]
  unfold Group.failure? at fails
  split at fails
  · rename_i noIds
    simp only at noIds
    simp only [Option.some.injEq] at fails
    simp only [resolver, noIds, if_true, ← fails]
  · rename_i someIds
    cases h : raw.lookup ids with
    | ok target => simp [h] at fails
    | error other =>
        simp only [h, Option.some.injEq] at fails
        simp only [resolver, someIds, if_false, h, fails]

end Resolver

/-!
### The outcome of resolving
-/

/-- How a pass ends that met this failure, or none. -/
def endOf : Option CompileError → Except CompileError Unit
  | some failure => .error failure
  | none => .ok ()

/-- The walk of the resolver ends with the first failure among the references of the row. The copies that it
has put in do not count: what follows is decided by the references of the raw row alone. -/
theorem Children.walk_resolver_result (raw : Group) :
    ∀ (children : Children) (location : List String) (events : List Event),
      (children.walk (resolver raw) location events).result =
        endOf ((children.references location).findSome? raw.failure?)
  | .nil, _, _ => rfl
  | .cons key (.group attributes children) rest, location, events => by
      have below := Children.walk_resolver_result raw children (location ++ [key]) events
      rw [Children.walk_resolver_group]
      simp only [Children.references, Node.references, List.findSome?_append]
      cases first : (children.references (location ++ [key])).findSome? raw.failure? with
      | some failure =>
          rw [first] at below
          rw [Walked.leave_of_error below]
          rfl
      | none =>
          rw [first] at below
          rw [Walked.leave_of_ok below]
          exact Children.walk_resolver_result raw rest location _
  | .cons key (.command text) rest, location, events => by
      rw [Children.walk_resolver_command]
      exact Children.walk_resolver_result raw rest location events
  | .cons key .placeholder rest, location, events => by
      rw [Children.walk_resolver_placeholder]
      exact Children.walk_resolver_result raw rest location events
  | .cons key (.reference ids) rest, location, events => by
      simp only [Children.references, Node.references, List.findSome?_append, List.findSome?_singleton]
      cases first : raw.failure? ⟨location ++ [key], ids⟩ with
      | some failure =>
          rw [Children.walk_resolver_reference_of_failure raw location events first]
          rfl
      | none =>
          obtain ⟨target, found⟩ := Group.failure?_eq_none_iff.mp first
          rw [Children.walk_resolver_reference_of_found raw location events found]
          exact Children.walk_resolver_result raw rest location _

/-- The references in front of the first one that cannot be replaced; all of them, if there is no such one. -/
def Group.replaceable (raw : Group) (references : List PlacedReference) : List PlacedReference :=
  references.takeWhile fun reference => raw.failure? reference = none

section

variable {raw : Group} {references : List PlacedReference}

/-- What comes after a failure has no part in it. -/
theorem Group.replaceable_append_of_some {failure : CompileError}
    (fails : references.findSome? raw.failure? = some failure) (later : List PlacedReference) :
    raw.replaceable (references ++ later) = raw.replaceable references := by
  induction references with
  | nil => simp at fails
  | cons first others ih =>
      rw [List.findSome?_cons] at fails
      cases here : raw.failure? first with
      | some _ => simp [Group.replaceable, here]
      | none =>
          rw [here] at fails
          simpa [Group.replaceable, here] using ih fails

theorem Group.replaceable_append_of_none (resolves : references.findSome? raw.failure? = none)
    (later : List PlacedReference) :
    raw.replaceable (references ++ later) = references ++ raw.replaceable later := by
  rw [List.findSome?_eq_none_iff] at resolves
  apply List.takeWhile_append_of_pos
  simpa using resolves

theorem Group.replaceable_of_none (resolves : references.findSome? raw.failure? = none) :
    raw.replaceable references = references := by
  have whole := Group.replaceable_append_of_none resolves []
  rwa [List.append_nil, show raw.replaceable [] = [] from rfl, List.append_nil] at whole

theorem Group.length_replaceable_le (raw : Group) (references : List PlacedReference) :
    (raw.replaceable references).length ≤ references.length :=
  (List.takeWhile_sublist _).length_le

end

/-- The walk of the resolver leaves the row with the references replaced that stand in front of the first one
that cannot be. Copies are not counted: how many references a unit holds is read off the raw row. -/
theorem Children.walk_resolver_children (raw : Group) :
    ∀ (children : Children) (location : List String) (events : List Event),
      (children.walk (resolver raw) location events).children =
        children.expandFirst raw (raw.replaceable (children.references location)).length
  | .nil, _, _ => rfl
  | .cons key (.group attributes children) rest, location, events => by
      have result := Children.walk_resolver_result raw children (location ++ [key]) events
      have inner := Children.walk_resolver_children raw children (location ++ [key]) events
      have count := Children.length_references (location ++ [key]) children
      rw [Children.walk_resolver_group]
      simp only [Children.references, Node.references, Children.expandFirst, Node.expandFirst,
        Node.referenceIds]
      cases first : (children.references (location ++ [key])).findSome? raw.failure? with
      | some failure =>
          -- The walk has ended below the group, so no reference behind it is reached.
          rw [first] at result
          have few := Group.length_replaceable_le raw (children.references (location ++ [key]))
          rw [count] at few
          rw [Walked.leave_of_error result, Group.replaceable_append_of_some first, inner,
            Nat.sub_eq_zero_of_le few, Children.expandFirst_zero]
      | none =>
          rw [first] at result
          have outer := Children.walk_resolver_children raw rest location
            (children.walk (resolver raw) (location ++ [key]) events).state
          rw [Group.replaceable_of_none first, count, Children.expandFirst_of_le raw children (Nat.le_refl _)] at inner
          rw [Walked.leave_of_ok result, Group.replaceable_append_of_none first, List.length_append, count,
            Nat.add_sub_cancel_left, Children.expandFirst_of_le raw children (Nat.le_add_right _ _), ← inner,
            ← outer]
          rfl
  | .cons key (.command text) rest, location, events => by
      rw [Children.walk_resolver_command]
      have outer := Children.walk_resolver_children raw rest location events
      simp only [Walked.prepend, Children.expandFirst, Node.expandFirst, outer]
      rfl
  | .cons key .placeholder rest, location, events => by
      rw [Children.walk_resolver_placeholder]
      have outer := Children.walk_resolver_children raw rest location events
      simp only [Walked.prepend, Children.expandFirst, Node.expandFirst, outer]
      rfl
  | .cons key (.reference ids) rest, location, events => by
      simp only [Children.references, Node.references, List.singleton_append]
      cases first : raw.failure? ⟨location ++ [key], ids⟩ with
      | some failure =>
          rw [Children.walk_resolver_reference_of_failure raw location events first, Group.replaceable,
            List.takeWhile_cons_of_neg (by simp [first]), List.length_nil, Children.expandFirst_zero]
      | none =>
          obtain ⟨target, found⟩ := Group.failure?_eq_none_iff.mp first
          have outer := Children.walk_resolver_children raw rest location (events ++ [.resolved key ids])
          rw [Children.walk_resolver_reference_of_found raw location events found, Group.replaceable,
            List.takeWhile_cons_of_pos (by simp [first]), List.length_cons]
          simp only [Walked.prepend, Children.expandFirst, Node.expandFirst, Node.referenceIds, found, outer]
          rfl

/-- Resolving ends with the failure of the first reference that cannot be replaced. -/
theorem Group.resolveReferences_result (group : Group) :
    group.resolveReferences.result = endOf group.firstFailure? :=
  Children.walk_resolver_result group group.children [] []

/-- However it ends, resolving leaves the tree with the references in front of the first failing one replaced. -/
theorem Group.resolveReferences_left (group : Group) :
    group.resolveReferences.left = group.expandFirst (group.replaceable group.references).length := by
  have children := Children.walk_resolver_children group group.children [] []
  simp only [Group.resolveReferences, Group.walk_eq_walk_children, children, Group.expandFirst, Group.references]

theorem Group.expandFirst_of_le (group : Group) {count : Nat} (enough : group.references.length ≤ count) :
    group.expandFirst count = group.expand := by
  rw [Group.references, Children.length_references] at enough
  rw [Group.expandFirst, Group.expand, Children.expandFirst_of_le group group.children enough]

/-- Where all references can be replaced, resolving leaves the expanded tree. -/
theorem Group.resolveReferences_left_of_ok {group : Group} (ok : group.firstFailure? = none) :
    group.resolveReferences.left = group.expand := by
  rw [Group.resolveReferences_left, Group.replaceable_of_none ok, Group.expandFirst_of_le group (Nat.le_refl _)]

/-- In any case resolving keeps the root's attributes and puts copies in the place of references only. -/
theorem Group.resolveReferences_copied (group : Group) :
    group.resolveReferences.left.attributes = group.attributes ∧
      group.children.CopiedFrom group group.resolveReferences.left.children := by
  refine ⟨rfl, ?_⟩
  rw [Group.resolveReferences_left]
  exact Children.copiedFrom_expandFirst group group.children _

end ShellUnits
