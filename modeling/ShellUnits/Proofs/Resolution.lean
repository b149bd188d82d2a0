import Mathlib.Logic.Function.Iterate
import ShellUnits.Proofs.Failures

/-!
Resolving as a substitution, and resolving again.

Resolving rewrites the tree that it walks, but it looks everything up in the tree as it was on entry. So what it
leaves is one substitution made at once: each reference in front of the first failing one has become the unit that
it addressed on entry, and nothing else has changed. Without a failure these are all references.

Copies can hold references that have not been replaced, and on a cycle they bring more of them with each pass. No
such reference ever fails: its ids are those of a reference on entry, and what these addressed then, a pass may
replace but does not take away.

Main statements: `Group.resolveReferences_eq_substitution`, `Group.resolveReferences_again`.
-/

namespace ShellUnits

/-!
### One substitution
-/

/-- The references in front of the first failing one are those that are replaced. -/
theorem Group.replaceable_of_split {group : Group} {before after : List PlacedReference}
    {reference : PlacedReference} {failure : CompileError}
    (resolve : ∀ earlier ∈ before, ∃ target, group.get? earlier.ids = some target)
    (fails : group.Unresolvable reference failure) :
    group.replaceable (before ++ reference :: after) = before := by
  have resolves : before.findSome? group.failure? = none := by
    rw [List.findSome?_eq_none_iff]
    intro earlier mem
    exact Group.failure?_eq_none_iff.mpr (resolve earlier mem)
  have stops : group.replaceable (reference :: after) = [] := by
    apply List.takeWhile_cons_of_neg
    simp [Group.failure?_eq_some_iff.mpr fails]
  rw [Group.replaceable_append_of_none resolves, stops, List.append_nil]

/-- Resolving substitutes all references at once, by what they address in the tree on entry. Either all of them
address units, and it succeeds and leaves the expanded tree, or it ends with the failure of the first one in
pre-order that addresses none, and exactly those in front of it have been replaced. -/
theorem Group.resolveReferences_eq_substitution (group : Group) :
    group.expandFirst group.references.length = group.expand ∧
      (((∀ reference ∈ group.references, ∃ target, group.get? reference.ids = some target) ∧
          group.resolveReferences.result = .ok () ∧ group.resolveReferences.left = group.expand) ∨
        ∃ before reference after failure, group.references = before ++ reference :: after ∧
          (∀ earlier ∈ before, ∃ target, group.get? earlier.ids = some target) ∧
          group.get? reference.ids = none ∧ group.Unresolvable reference failure ∧
          group.resolveReferences.result = .error failure ∧
          group.resolveReferences.left = group.expandFirst before.length) := by
  refine ⟨Group.expandFirst_of_le group (Nat.le_refl _), ?_⟩
  cases first : group.firstFailure? with
  | none =>
      left
      refine ⟨Group.firstFailure?_eq_none_iff.mp first, ?_, Group.resolveReferences_left_of_ok first⟩
      rw [Group.resolveReferences_result, first]
      rfl
  | some failure =>
      right
      obtain ⟨before, reference, after, inOrder, resolve, fails⟩ := Group.firstFailure?_eq_some_iff.mp first
      have addressesNone := Group.exists_unresolvable_iff.mp ⟨failure, fails⟩
      refine ⟨before, reference, after, failure, inOrder, resolve, addressesNone, fails, ?_, ?_⟩
      · rw [Group.resolveReferences_result, first]
        rfl
      · rw [Group.resolveReferences_left, inOrder, Group.replaceable_of_split resolve fails]

/-- The copy that is put in is one of the group as it was on entry, and what stands behind the failure stays. -/
example :
    let behind : Children := .cons "bad" (.reference ["all", "gone"]) (.cons "late" (.reference ["all"]) .nil)
    let onEntry : Children := .cons "again" (.reference ["all"]) behind
    let tree (children : Children) : Group := { children := .cons "all" (.group {} children) .nil }
    (tree onEntry).resolveReferences.left = tree (.cons "again" (.group {} onEntry) behind) ∧
      (tree onEntry).resolveReferences.result =
        .error (.unresolvedReference ["all", "gone"] ["all"] "gone" (.group {} onEntry)) :=
  ⟨by decide, rfl⟩

/-!
### References in copies
-/

theorem Children.referenceIds_of_get? {children : Children} {key : String} {node : Node}
    (there : children.get? key = some node) : node.referenceIds ⊆ children.referenceIds := by
  rw [← Node.map_ids_references ([] ++ [key]), ← Children.map_ids_references []]
  exact List.map_subset PlacedReference.ids (Children.references_of_get? there)

/-- A unit that can be addressed has only references of the tree in it, the unit itself included. -/
theorem Group.referenceIds_of_get? {group : Group} {path : List String} {target : Node}
    (addressed : group.get? path = some target) : target.referenceIds ⊆ group.children.referenceIds := by
  refine Group.get?_of_handedDown ?_ (fun _ _ => Children.referenceIds_of_get?) addressed
  intro attributes children key node inGroup there
  exact List.Subset.trans (Children.referenceIds_of_get? there) inGroup

/-- Expanding brings no references whose ids are not in the raw tree. -/
theorem Children.referenceIds_expand {raw : Group} {children : Children}
    (inRaw : children.referenceIds ⊆ raw.children.referenceIds) :
    (children.expand raw).referenceIds ⊆ raw.children.referenceIds := by
  rw [Children.referenceIds_expand_eq]
  intro ids mem
  obtain ⟨replaced, there, left⟩ := List.mem_flatMap.mp mem
  cases addressed : raw.get? replaced with
  | none =>
      rw [addressed, Option.getD_none, Node.referenceIds, List.mem_singleton] at left
      exact inRaw (left ▸ there)
  | some target =>
      rw [addressed, Option.getD_some] at left
      exact Group.referenceIds_of_get? addressed left

/-- A path goes through groups, which are not replaced. -/
theorem Node.expand_goesDown (raw : Group) : GoesDown fun node other => other = node.expand raw := by
  rintro attributes children _ rfl
  refine ⟨attributes, children.expand raw, rfl, ?_⟩
  intro key node there
  exact ⟨_, by rw [(Children.expand_eachBy raw).get?, there, Option.map_some], rfl⟩

/-- What a path addresses in the raw tree, it addresses in the expanded tree, expanded. -/
theorem Group.get?_expand {group : Group} {path : List String} {target : Node}
    (addressed : group.get? path = some target) : group.expand.get? path = some (target.expand group) := by
  have isMatch : group.children.Matches (fun node other => other = node.expand group) group.expand.children := by
    intro key node there
    exact ⟨_, by rw [Group.expand, (Children.expand_eachBy group).get?, there, Option.map_some], rfl⟩
  obtain ⟨found, addressedToo, rfl⟩ := Group.get?_of_matches (Node.expand_goesDown group) isMatch addressed
  exact addressedToo

/-!
### Resolving again
-/

/-- All references of a tree can be replaced exactly when the ids in it address units. -/
theorem Group.firstFailure?_eq_none_iff_ids {group : Group} :
    group.firstFailure? = none ↔
      ∀ ids ∈ group.children.referenceIds, ∃ target, group.get? ids = some target := by
  rw [Group.firstFailure?_eq_none_iff, ← Children.map_ids_references [], List.forall_mem_map]
  rfl

/-- What passes over a tree keep: paths that led to a unit on entry still do, and references hold no ids that none
held on entry. -/
structure Group.LeadsTo (entry later : Group) : Prop where
  paths : ∀ path target, entry.get? path = some target → ∃ found, later.get? path = some found
  ids : later.children.referenceIds ⊆ entry.children.referenceIds

namespace Group.LeadsTo

variable {entry later : Group}

theorem refl (entry : Group) : entry.LeadsTo entry :=
  ⟨fun _ target addressed => ⟨target, addressed⟩, List.Subset.refl _⟩

/-- References that could be replaced on entry can be replaced later, in copies too. -/
theorem resolves (leads : entry.LeadsTo later) (onEntry : entry.firstFailure? = none) :
    later.firstFailure? = none := by
  rw [Group.firstFailure?_eq_none_iff_ids] at onEntry ⊢
  intro ids mem
  obtain ⟨target, addressed⟩ := onEntry ids (leads.ids mem)
  exact leads.paths ids target addressed

/-- One more pass keeps what the passes before it have kept. -/
theorem expand (leads : entry.LeadsTo later) : entry.LeadsTo later.expand := by
  constructor
  · intro path target addressed
    obtain ⟨found, stillThere⟩ := leads.paths path target addressed
    exact ⟨_, Group.get?_expand stillThere⟩
  · apply List.Subset.trans _ leads.ids
    exact Children.referenceIds_expand (List.Subset.refl _)

end Group.LeadsTo

/-- The tree that so many passes leave, each of them over what the one before has left. -/
def Group.resolvedTimes (passes : Nat) (group : Group) : Group :=
  (fun tree : Group => tree.resolveReferences.left)^[passes] group

theorem Group.leadsTo_resolvedTimes {group : Group} (resolves : group.firstFailure? = none) (passes : Nat) :
    group.LeadsTo (group.resolvedTimes passes) := by
  induction passes with
  | zero => exact .refl group
  | succ passes ih =>
      rw [Group.resolvedTimes, Function.iterate_succ_apply', ← Group.resolvedTimes,
        Group.resolveReferences_left_of_ok (ih.resolves resolves)]
      exact ih.expand

/-- A tree that has been resolved can be resolved again, any number of times: no reference that a pass has left
over fails in a later one, though it stands in copies and on cycles there are more of them each time. -/
theorem Group.resolveReferences_again {group : Group} (resolves : group.resolveReferences.result = .ok ())
    (passes : Nat) : (group.resolvedTimes passes).resolveReferences.result = .ok () := by
  have onEntry : group.firstFailure? = none := by
    rw [Group.resolveReferences_result] at resolves
    cases first : group.firstFailure? with
    | none => rfl
    | some failure => simp [first, endOf] at resolves
  rw [Group.resolveReferences_result, (Group.leadsTo_resolvedTimes onEntry passes).resolves onEntry]
  rfl

/-- A group with a copy of itself and a reference to that very reference, and two references to one another. -/
def Group.cyclic : Group where
  children :=
    .cons "all" (.group {} <| .cons "again" (.reference ["all"]) <|
      .cons "itself" (.reference ["all", "itself"]) .nil) <|
    .cons "left" (.reference ["right"]) <|
    .cons "right" (.reference ["left"]) .nil

/-- Each pass makes the tree deeper, and none fails. -/
theorem Group.resolveReferences_again_cyclic :
    Group.cyclic.resolveReferences.result = .ok () ∧
      (Group.cyclic.resolvedTimes 3).resolveReferences.result = .ok () ∧
      Group.cyclic.children.depth = 1 ∧ (Group.cyclic.resolvedTimes 3).children.depth = 8 := by
  have resolves : Group.cyclic.resolveReferences.result = .ok () := rfl
  exact ⟨resolves, Group.resolveReferences_again resolves 3, by decide, by decide⟩

end ShellUnits
