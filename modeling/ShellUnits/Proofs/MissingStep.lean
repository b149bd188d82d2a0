import Mathlib.Order.Bounds.Defs
import ShellUnits.Proofs.Lookup

/-!
The step at which following a reference fails.

Following the ids of a reference finds what following them as keys finds. Where it fails, the error names the first
id behind which nothing is addressed any more, and shows the unit that the ids before it lead to: the root, a group
without that key, or a unit that has no children at all.

Main statement: `Group.lookup_blames_first_missing`.
-/

namespace ShellUnits

/-- The ids lead on from the root up to the unit `reached`, and the next one, `id` at position `index`, is the
first behind which no unit is addressed. -/
structure Group.MissesAt (root : Group) (ids : List String) (index : Nat) (id : String) (reached : Node) : Prop where
  first : IsLeast {i | i < ids.length ∧ root.get? (ids.take (i + 1)) = none} index
  missing : ids[index]? = some id
  standing : (index = 0 ∧ reached = root.toNode) ∨ root.get? (ids.take index) = some reached

section

variable {root : Group} {ids : List String} {index : Nat} {id : String} {reached : Node}

/-- Where keys are followed up to some unit, a unit is addressed behind each of them. -/
theorem Group.get?_take_ne_none {path : List String} (follows : root.toNode.follow path = some reached) {count : Nat}
    (within : count < path.length) : root.get? (path.take (count + 1)) ≠ none := by
  have someKeys : path.take (count + 1) ≠ [] := List.ne_nil_of_length_pos (by simp; omega)
  rw [Group.get?_eq_follow root someKeys]
  intro stops
  rw [← List.take_append_drop (count + 1) path, Node.follow_append, stops] at follows
  simp at follows

/-- Behind the ids that lead on, the next one is the first that is missing. -/
theorem Group.missesAt_of_follow {passed after : List String} (follows : root.toNode.follow passed = some reached)
    (stops : reached.follow [id] = none) :
    root.MissesAt (passed ++ id :: after) passed.length id reached where
  first := by
    constructor
    · have upTo : (passed ++ id :: after).take (passed.length + 1) = passed ++ [id] :=
        List.take_length_add_append 1
      refine ⟨by simp, ?_⟩
      rw [upTo, Group.get?_eq_follow root (by simp), Node.follow_append, follows]
      exact stops
    · rintro count ⟨-, absent⟩
      refine Nat.le_of_not_lt fun within => ?_
      rw [List.take_append_of_le_length within] at absent
      exact Group.get?_take_ne_none follows within absent
  missing := by simp
  standing := by
    rw [List.take_left]
    cases passed with
    | nil => exact .inl ⟨rfl, (Option.some.inj follows).symm⟩
    | cons key rest => exact .inr (by rw [Group.get?_eq_follow root (by simp), follows])

/-- What stands in front of the missing id is what the ids before it lead to. -/
theorem Group.MissesAt.follow_take (misses : root.MissesAt ids index id reached) :
    root.toNode.follow (ids.take index) = some reached := by
  rcases misses.standing with ⟨rfl, rfl⟩ | addressed
  · rfl
  · have someKeys : ids.take index ≠ [] := by
      intro none
      simp [none, Group.get?] at addressed
    rw [← Group.get?_eq_follow root someKeys, addressed]

/-- The missing id does not lead on from there. -/
theorem Group.MissesAt.follow_missing (misses : root.MissesAt ids index id reached) : reached.follow [id] = none := by
  have absent := misses.first.1.2
  rw [List.take_add_one, misses.missing, Option.toList_some, Group.get?_eq_follow root (by simp), Node.follow_append,
    misses.follow_take] at absent
  exact absent

/-- The place in front of the missing id is the root exactly for the first id. -/
theorem Group.MissesAt.locationText_take (misses : root.MissesAt ids index id reached) :
    locationText (ids.take index) = if index = 0 then "<root>" else ".".intercalate (ids.take index) := by
  have within := misses.first.1.1
  by_cases atRoot : index = 0
  · rw [locationText, atRoot, List.take_zero, if_pos rfl, if_pos rfl]
  · have someIds : ids.take index ≠ [] := List.ne_nil_of_length_pos (by rw [List.length_take]; omega)
    rw [locationText, if_neg someIds, if_neg atRoot]

/-- The failures of a look-up are those of its first missing ids. -/
theorem Group.lookup_eq_error_iff_missesAt {failure : CompileError} (someIds : ids ≠ []) :
    root.lookup ids = .error failure ↔
      ∃ index id reached, root.MissesAt ids index id reached ∧
        failure = .unresolvedReference ids (ids.take index) id reached := by
  rw [Group.lookup, if_neg someIds, lookupFrom_eq_error_iff]
  constructor
  · rintro ⟨passed, id, after, reached, rfl, follows, stops, rfl⟩
    exact ⟨passed.length, id, reached, Group.missesAt_of_follow follows stops, by simp⟩
  · rintro ⟨index, id, reached, misses, rfl⟩
    have split : ids = ids.take index ++ id :: ids.drop (index + 1) := by
      have rest : ids.drop index = id :: ids.drop (index + 1) := by
        rw [List.drop_eq_getElem?_toList_append, misses.missing, Option.toList_some, List.singleton_append]
      rw [← rest, List.take_append_drop]
    exact ⟨_, id, _, reached, split, misses.follow_take, misses.follow_missing, rfl⟩

end

/-- Following ids finds what following them as keys finds. No ids fail as an empty path at the root. Other ids fail
at the first of them behind which no unit is addressed, with the ids before it, and the error shows the unit that
they lead to. -/
theorem Group.lookup_blames_first_missing (root : Group) (ids : List String) :
    (∀ node, root.lookup ids = .ok node ↔ root.get? ids = some node) ∧
      (∀ failure, root.lookup ids = .error failure ↔
        (ids = [] ∧ failure = .emptyReferencePath []) ∨
          ∃ index id reached, root.MissesAt ids index id reached ∧
            failure = .unresolvedReference ids (ids.take index) id reached) ∧
      ∀ index id reached, root.MissesAt ids index id reached →
        (CompileError.unresolvedReference ids (ids.take index) id reached).message =
          "Unable to resolve " ++ formatReference ids ++ ": no unit `" ++ id ++ "` in `" ++
            (if index = 0 then "<root>" else ".".intercalate (ids.take index)) ++
            "` (" ++ reached.summary ++ ")" := by
  refine ⟨fun node => Group.lookup_eq_ok_iff, ?_, ?_⟩
  · intro failure
    by_cases noIds : ids = []
    · have none : ∀ index id reached, ¬ root.MissesAt [] index id reached := by
        intro index id reached misses
        simpa using misses.first.1.1
      simp [noIds, Group.lookup, none, eq_comm]
    · simp [noIds, Group.lookup_eq_error_iff_missesAt noIds]
  · intro index id reached misses
    rw [← misses.locationText_take]
    rfl

/-- A command has no children, so the first id that would be one of them is missing, whatever comes later. -/
example :
    Group.lookup { children := .cons "a" (.command "make") .nil } ["a", "b", "c"] =
      .error (.unresolvedReference ["a", "b", "c"] ["a"] "b" (.command "make")) := rfl

end ShellUnits
