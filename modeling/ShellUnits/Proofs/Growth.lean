import ShellUnits.Proofs.Processing

/-!
Adding units to a tree.

A tree grows when units are added under keys that were free. Look-ups that went well find the same units,
grown themselves where something was added in them. So each reference is replaced by a grown copy, each group
keeps its name and directory, and every function is still there, in the same order.

Main statement: `compile_functions_sublist_of_add`.
-/

namespace ShellUnits

/-!
### Adding a unit
-/

/-- Puts a unit in front of the child at this position, or behind all children if there is none. -/
def Children.insertIdx : Nat → String → Node → Children → Children
  | 0, key, node, children => .cons key node children
  | _ + 1, key, node, .nil => .cons key node .nil
  | position + 1, key, node, .cons k n rest => .cons k n (insertIdx position key node rest)

/-- Puts a unit among the children of the group. -/
def Group.insertIdx (position : Nat) (key : String) (node : Node) (group : Group) : Group :=
  { group with children := group.children.insertIdx position key node }

/-!
### Growth
-/

mutual

/-- The second unit is the first one, maybe with further units added in it. -/
inductive Node.Grows : Node → Node → Prop where
  | group (attributes : Attributes) {children more : Children} (below : Children.Grows children more) :
      Node.Grows (.group attributes children) (.group attributes more)
  | command (text : String) : Node.Grows (.command text) (.command text)
  | placeholder : Node.Grows .placeholder .placeholder
  | reference (ids : List String) : Node.Grows (.reference ids) (.reference ids)

/-- The second row is the first one with its units grown and further ones added. A unit that is added takes no
key that comes after it. -/
inductive Children.Grows : Children → Children → Prop where
  | nil : Children.Grows .nil .nil
  | keep (key : String) {node larger : Node} {rest more : Children} (first : Node.Grows node larger)
      (others : Children.Grows rest more) : Children.Grows (.cons key node rest) (.cons key larger more)
  | add {key : String} (node : Node) {children more : Children} (fresh : key ∉ children.keys)
      (others : Children.Grows children more) : Children.Grows children (.cons key node more)

end

mutual

theorem Node.Grows.refl : ∀ node : Node, node.Grows node
  | .group attributes children => .group attributes (.refl children)
  | .command text => .command text
  | .placeholder => .placeholder
  | .reference ids => .reference ids

theorem Children.Grows.refl : ∀ children : Children, children.Grows children
  | .nil => .nil
  | .cons key node rest => .keep key (.refl node) (.refl rest)

end

theorem Children.grows_insertIdx {key : String} (node : Node) :
    ∀ (position : Nat) {children : Children}, key ∉ children.keys →
      children.Grows (children.insertIdx position key node)
  | 0, children, fresh => .add node fresh (.refl children)
  | _ + 1, .nil, fresh => .add node fresh .nil
  | position + 1, .cons k n rest, fresh => by
      have freshBehind : key ∉ rest.keys := fun mem => fresh (List.mem_cons_of_mem k mem)
      exact .keep k (.refl n) (Children.grows_insertIdx node position freshBehind)

/-- A row grows when one of its units does. -/
theorem Children.grows_insert {key : String} {node larger : Node} (grows : node.Grows larger) :
    ∀ {children : Children}, children.get? key = some node → children.Grows (children.insert key larger)
  | .cons k n rest, found => by
      simp only [Children.get?] at found
      simp only [Children.insert]
      split
      · rename_i here
        rw [if_pos here, Option.some.injEq] at found
        subst found
        exact .keep k grows (.refl rest)
      · rename_i elsewhere
        rw [if_neg elsewhere] at found
        exact .keep k (.refl n) (Children.grows_insert grows found)

/-- A unit can be added under a free key in each group that keys lead to, and the tree grows by it. -/
theorem Group.exists_modifyAt?_insertIdx (position : Nat) {key : String} (node : Node) :
    ∀ {path : List String} (group : Group) {attributes : Attributes} {children : Children},
      group.toNode.follow path = some (.group attributes children) → key ∉ children.keys →
        ∃ more, group.modifyAt? (Group.insertIdx position key node) path = some more ∧
          more.attributes = group.attributes ∧ group.children.Grows more.children
  | [], group, attributes, children, there, fresh => by
      simp only [Group.toNode, Node.follow, Option.some.injEq, Node.group.injEq] at there
      obtain ⟨-, rfl⟩ := there
      exact ⟨group.insertIdx position key node, rfl, rfl, Children.grows_insertIdx node position fresh⟩
  | k :: path, group, attributes, children, there, fresh => by
      obtain ⟨child, found, there⟩ := Option.bind_eq_some_iff.mp there
      cases child with
      | group own below =>
          obtain ⟨more, modified, same, grows⟩ :=
            Group.exists_modifyAt?_insertIdx position node ⟨own, below⟩ there fresh
          refine ⟨{ group with children := group.children.insert k more.toNode }, ?_, rfl, ?_⟩
          · simp only [Group.modifyAt?, found, modified, Option.map_some]
          · refine Children.grows_insert ?_ found
            rw [Group.toNode, same]
            exact .group own grows
      | command text => cases path <;> simp [Node.follow] at there
      | placeholder => cases path <;> simp [Node.follow] at there
      | reference ids => cases path <;> simp [Node.follow] at there

/-!
### Look-ups in a tree that has grown
-/

theorem Children.Grows.get? {key : String} {node : Node} {children more : Children} (grows : children.Grows more)
    (found : children.get? key = some node) : ∃ larger, more.get? key = some larger ∧ node.Grows larger := by
  induction more generalizing children with
  | nil =>
      cases grows
      simp [Children.get?] at found
  | cons k larger more ih =>
      cases grows with
      | keep _ first others =>
          simp only [Children.get?] at found ⊢
          split
          · rename_i here
            rw [if_pos here, Option.some.injEq] at found
            exact ⟨_, rfl, found ▸ first⟩
          · rename_i elsewhere
            rw [if_neg elsewhere] at found
            exact ih others found
      | add _ fresh others =>
          have ne : k ≠ key := by
            rintro rfl
            exact fresh (Children.mem_keys_of_get? found)
          rw [Children.get?, if_neg ne]
          exact ih others found

theorem Node.grows_goesDown : GoesDown Node.Grows := by
  intro attributes children other grows
  cases grows with
  | group _ below => exact ⟨attributes, _, rfl, fun _ _ => below.get?⟩

/-- What ids addressed before, they address still. -/
theorem Group.get?_of_grows {group more : Group} (grows : group.children.Grows more.children)
    {ids : List String} {target : Node} (found : group.get? ids = some target) :
    ∃ larger, more.get? ids = some larger ∧ target.Grows larger :=
  Group.get?_of_matches Node.grows_goesDown (fun _ _ => grows.get?) found

/-!
### What the passes make of growth
-/

section

variable {raw grown : Group}

mutual

theorem Node.grows_expand (grows : raw.children.Grows grown.children) {location : List String} :
    ∀ {node larger : Node}, node.Grows larger →
      (∀ reference ∈ node.references location, ∃ target, raw.get? reference.ids = some target) →
        (node.expand raw).Grows (larger.expand grown)
  | _, _, .group attributes below, resolve => .group attributes (Children.grows_expand grows below resolve)
  | _, _, .command text, _ => .command text
  | _, _, .placeholder, _ => .placeholder
  | _, _, .reference ids, resolve => by
      obtain ⟨target, found⟩ := resolve ⟨location, ids⟩ (List.mem_singleton_self _)
      obtain ⟨larger, foundToo, targetGrows⟩ := Group.get?_of_grows grows found
      simp only [Node.expand, found, foundToo, Option.getD_some]
      exact targetGrows

/-- Each reference is replaced by what its target has grown to. -/
theorem Children.grows_expand (grows : raw.children.Grows grown.children) {location : List String} :
    ∀ {children more : Children}, children.Grows more →
      (∀ reference ∈ children.references location, ∃ target, raw.get? reference.ids = some target) →
        (children.expand raw).Grows (more.expand grown)
  | _, _, .nil, _ => .nil
  | _, _, .keep key first others, resolve => by
      simp only [Children.references, List.forall_mem_append] at resolve
      exact .keep key (Node.grows_expand grows first resolve.1) (Children.grows_expand grows others resolve.2)
  | _, _, .add node fresh others, resolve =>
      .add (node.expand grown) (by simpa using fresh) (Children.grows_expand grows others resolve)

end

end

mutual

theorem Node.Grows.derive (separator : Separator) (directory parent : Option String) (key : String) :
    ∀ {node larger : Node}, node.Grows larger →
      (node.derive separator directory parent key).Grows (larger.derive separator directory parent key)
  | _, _, .group attributes below => .group _ (below.derive separator _ _)
  | _, _, .command text => .refl _
  | _, _, .placeholder => .refl _
  | _, _, .reference ids => .refl _

/-- Names and directories are handed down, so those of a group do not depend on what stands beside it. -/
theorem Children.Grows.derive (separator : Separator) (directory parent : Option String) :
    ∀ {children more : Children}, children.Grows more →
      (children.derive separator directory parent).Grows (more.derive separator directory parent)
  | _, _, .nil => .nil
  | _, _, .keep key first others =>
      .keep key (first.derive separator directory parent key) (others.derive separator directory parent)
  | _, _, .add node fresh others =>
      .add (node.derive separator directory parent _) (by simpa using fresh)
        (others.derive separator directory parent)

end

mutual

theorem Node.Grows.functions : ∀ {node larger : Node}, node.Grows larger →
    node.functions.Sublist larger.functions
  | _, _, .group attributes below => (List.Sublist.refl _).append below.functions
  | _, _, .command text => .refl _
  | _, _, .placeholder => .refl _
  | _, _, .reference ids => .refl _

/-- A unit that is added puts its functions in between and takes none away. -/
theorem Children.Grows.functions : ∀ {children more : Children}, children.Grows more →
    children.functions.Sublist more.functions
  | _, _, .nil => .refl _
  | _, _, .keep key first others => first.functions.append others.functions
  | _, _, .add _ _ others => List.sublist_append_of_sublist_right others.functions

end

/-- A document whose tree has grown has all functions that it had. -/
theorem Document.functions_sublist_of_grows {document : Document} {separator : Separator} {units : Group}
    (resolves : document.units.firstFailure? = none) (same : units.attributes = document.units.attributes)
    (grows : document.units.children.Grows units.children) :
    (document.processed separator).units.functions.Sublist
      (Document.processed separator { document with units }).units.functions := by
  have expanded := Children.grows_expand grows grows (Group.firstFailure?_eq_none_iff.mp resolves)
  simp only [Document.processed, same]
  exact (expanded.derive separator _ none).functions

/-- A unit can be added under any free key, anywhere among the children of any group of a document. If the
document compiles before and after, the functions before are, in their order, among the functions after: none
is changed and none is lost. -/
theorem compile_functions_sublist_of_add {document : Document} {path : List String} {attributes : Attributes}
    {children : Children} (there : document.units.toNode.follow path = some (.group attributes children))
    {key : String} (fresh : key ∉ children.keys) (node : Node) (position : Nat) :
    ∃ units, document.units.modifyAt? (Group.insertIdx position key node) path = some units ∧
      ∀ functions more, (compile document).result = .ok functions →
        (compile { document with units }).result = .ok more → functions.Sublist more := by
  obtain ⟨units, added, same, grows⟩ :=
    Group.exists_modifyAt?_insertIdx position node document.units there fresh
  refine ⟨units, added, ?_⟩
  intro functions more compiles compilesToo
  obtain ⟨separator, ok, resolves, rfl⟩ := compile_eq_ok_iff.mp compiles
  obtain ⟨other, okToo, -, rfl⟩ := compile_eq_ok_iff.mp compilesToo
  obtain rfl : separator = other := Except.ok.inj (ok.symm.trans okToo)
  exact Document.functions_sublist_of_grows resolves same grows

/-- A library and a copy of it. -/
def Document.copied : Document where
  units :=
    { children :=
        .cons "lib" (.group { directory := some "x" } (.cons "build" (.command "make") .nil)) <|
        .cons "app" (.reference ["lib"]) .nil }

/-- A unit that is added to the library comes up in the copy too, and all else stays. -/
theorem compile_copied_add :
    "test" ∉ ["build"] ∧
      ∃ units functions more,
        Document.copied.units.modifyAt? (Group.insertIdx 0 "test" (.command "check")) ["lib"] = some units ∧
          (compile .copied).result = .ok functions ∧ (compile { Document.copied with units }).result = .ok more ∧
          functions.map Function.name = ["lib", "lib.build", "app", "app.build"] ∧
          more.map Function.name = ["lib", "lib.test", "lib.build", "app", "app.test", "app.build"] ∧
          functions.Sublist more := by
  have there : Document.copied.units.toNode.follow ["lib"] =
      some (.group { directory := some "x" } (.cons "build" (.command "make") .nil)) := by decide
  have fresh : "test" ∉ (Children.cons "build" (.command "make") .nil).keys := by decide
  obtain ⟨units, added, keeps⟩ := compile_functions_sublist_of_add there fresh (.command "check") 0
  obtain rfl := Option.some.inj added
  have compiles : (compile .copied).result =
      .ok [⟨"lib", some "x", none⟩, ⟨"lib.build", some "x", some "make"⟩,
        ⟨"app", some "x", none⟩, ⟨"app.build", some "x", some "make"⟩] := rfl
  refine ⟨fresh, _, _, _, added, compiles, rfl, by decide, by decide, keeps _ _ compiles rfl⟩

end ShellUnits
