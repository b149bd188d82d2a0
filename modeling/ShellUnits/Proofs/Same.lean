import Mathlib.Data.List.Perm.Subperm
import ShellUnits.Document.WellKeyed
import ShellUnits.Proofs.Lookup
import ShellUnits.Same

/-!
Equality up to order, key by key.

Documents are compared by counting entries and finding each of one among those of the other. Where no key
stands twice this says that the same keys have equal entries on both sides, so it does not matter which of the
two is searched.

Main statements: `Keyed.rel_get?_iff`, `Group.same_symm`, `Document.same_iff`.
-/

namespace ShellUnits

/-!
### Lists of entries
-/

namespace Keyed

variable {κ ν : Type} [DecidableEq κ] {entries others : Keyed κ ν}

theorem isSome_of_rel {related : ν → ν → Prop} {value other : Option ν} (rel : Option.Rel related value other) :
    value.isSome = other.isSome := by
  cases rel <;> rfl

/-- Lists in which no key stands twice have related entries under the same keys exactly when they have the same
length and each entry of the first has a related one in the second. -/
theorem rel_get?_iff {related : ν → ν → Prop} (distinct : Distinct entries) (othersDistinct : Distinct others) :
    (∀ key, Option.Rel related (get? key entries) (get? key others)) ↔
      entries.length = others.length ∧
        ∀ entry ∈ entries, ∃ value, get? entry.1 others = some value ∧ related entry.2 value := by
  have lengths : entries.length = others.length ↔ (keys entries).length = (keys others).length := by
    simp [keys]
  rw [lengths]
  constructor
  · intro rel
    have sameKeys : (keys entries).Perm (keys others) := by
      rw [List.perm_ext_iff_of_nodup distinct othersDistinct]
      intro key
      rw [← get?_isSome_iff, ← get?_isSome_iff, isSome_of_rel (rel key)]
    refine ⟨sameKeys.length_eq, ?_⟩
    intro entry mem
    have rel := rel entry.1
    rw [(get?_eq_some_iff distinct).mpr mem] at rel
    generalize get? entry.1 others = found at rel
    cases rel with
    | some relates => exact ⟨_, rfl, relates⟩
  · rintro ⟨length, within⟩ key
    have subset : keys entries ⊆ keys others := by
      intro key mem
      obtain ⟨entry, among, rfl⟩ := List.mem_map.mp mem
      obtain ⟨value, found, -⟩ := within entry among
      rw [← get?_isSome_iff, found]
      rfl
    have sameKeys : (keys entries).Perm (keys others) :=
      (List.subperm_of_subset distinct subset).perm_of_length_le (Nat.le_of_eq length.symm)
    cases found : get? key entries with
    | some value =>
        obtain ⟨other, foundToo, relates⟩ := within (key, value) (mem_of_get?_eq_some found)
        rw [foundToo]
        exact .some relates
    | none =>
        rw [get?_eq_none_iff, sameKeys.mem_iff, ← get?_eq_none_iff] at found
        rw [found]
        exact .none

end Keyed

/-!
### Units
-/

theorem Children.length_toList (children : Children) : children.toList.length = children.length := by
  induction children with
  | nil => rfl
  | cons key node rest ih => rw [Children.toList, List.length_cons, ih, Children.length]

theorem Children.EachBy.length {pass : Children → Children} {change : String → Node → Node}
    (each : EachBy pass change) (children : Children) : (pass children).length = children.length := by
  have keys := each.keys children
  rw [Children.keys_eq_keys_toList, Children.keys_eq_keys_toList] at keys
  rw [← Children.length_toList, ← Children.length_toList]
  simpa [Keyed.keys] using congrArg List.length keys

theorem Children.WellKeyed.distinct {children : Children} (wellKeyed : children.WellKeyed) :
    Keyed.Distinct children.toList := by
  rw [Keyed.Distinct, ← Children.keys_eq_keys_toList]
  exact wellKeyed.nodup

theorem Children.within_cons_iff {key : String} {node : Node} {rest others : Children} :
    (Children.cons key node rest).within others = true ↔
      (∃ found, others.get? key = some found ∧ node.same found = true) ∧ rest.within others = true := by
  rw [Children.within, Bool.and_eq_true]
  cases others.get? key <;> simp

theorem Children.within_iff {children others : Children} :
    children.within others = true ↔
      ∀ entry ∈ children.toList, ∃ found, Keyed.get? entry.1 others.toList = some found ∧
        entry.2.same found = true := by
  induction children with
  | nil => simp [Children.within, Children.toList]
  | cons key node rest ih =>
      rw [Children.within_cons_iff, ih, Children.toList, List.forall_mem_cons, Children.get?_eq_get?_toList]

theorem Node.same_group_iff {attributes otherAttributes : Attributes} {children others : Children} :
    (Node.group attributes children).same (.group otherAttributes others) = true ↔
      attributes = otherAttributes ∧ children.length = others.length ∧ children.within others = true := by
  simp [Node.same, and_assoc]

/-- Under each key equal rows have equal units, or none. -/
theorem Children.rel_get?_iff {children others : Children} (wellKeyed : children.WellKeyed)
    (othersWellKeyed : others.WellKeyed) :
    (∀ key, Option.Rel (fun node other => node.same other = true) (children.get? key) (others.get? key)) ↔
      children.length = others.length ∧ children.within others = true := by
  simp only [Children.get?_eq_get?_toList]
  rw [Keyed.rel_get?_iff wellKeyed.distinct othersWellKeyed.distinct, Children.within_iff,
    Children.length_toList, Children.length_toList]

/-- Units other than groups have no order, so they are equal only to themselves. -/
theorem Node.eq_of_same {node other : Node} (notGroup : node.asGroup? = none) (same : node.same other = true) :
    other = node := by
  cases node <;> cases other <;> simp_all [Node.same, Node.asGroup?]

/-- Only groups are equal to groups, and they are compared key by key. -/
theorem Node.same_goesDown : GoesDown fun node other => node.same other = true := by
  intro attributes children other same
  cases other with
  | group otherAttributes others =>
      obtain ⟨-, -, within⟩ := Node.same_group_iff.mp same
      refine ⟨otherAttributes, others, rfl, ?_⟩
      intro key node there
      rw [Children.get?_eq_get?_toList] at there ⊢
      exact Children.within_iff.mp within (key, node) (Keyed.mem_of_get?_eq_some there)
  | command text => simp [Node.same] at same
  | placeholder => simp [Node.same] at same
  | reference ids => simp [Node.same] at same

theorem rel_swap {related back : Node → Node → Prop} {unit other : Option Node}
    (rel : Option.Rel related unit other)
    (swaps : ∀ node found, unit = some node → other = some found → related node found → back found node) :
    Option.Rel back other unit := by
  cases rel with
  | none => exact .none
  | some relates => exact .some (swaps _ _ rfl rfl relates)

mutual

/-- It does not matter which of two units is searched for the entries of the other. -/
theorem Node.same_symm :
    ∀ {node other : Node}, node.WellKeyed → other.WellKeyed → node.same other = true → other.same node = true
  | .group attributes children, other, wellKeyed, otherWellKeyed, same => by
      obtain ⟨otherAttributes, others, rfl, -⟩ := Node.same_goesDown attributes children other same
      obtain ⟨rfl, equal⟩ := Node.same_group_iff.mp same
      have rel := (Children.rel_get?_iff wellKeyed otherWellKeyed).mpr equal
      refine Node.same_group_iff.mpr ⟨rfl, (Children.rel_get?_iff otherWellKeyed wellKeyed).mp ?_⟩
      intro key
      refine rel_swap (rel key) ?_
      intro node found there thereToo same
      exact Children.same_symm_of_get? wellKeyed there (otherWellKeyed.of_get? thereToo) same
  | .command _, _, _, _, same => by
      obtain rfl := Node.eq_of_same rfl same
      exact same
  | .placeholder, _, _, _, same => by
      obtain rfl := Node.eq_of_same rfl same
      exact same
  | .reference _, _, _, _, same => by
      obtain rfl := Node.eq_of_same rfl same
      exact same

theorem Children.same_symm_of_get? {key : String} {node other : Node} :
    ∀ {children : Children}, children.WellKeyed → children.get? key = some node → other.WellKeyed →
      node.same other = true → other.same node = true
  | .cons k first rest, ⟨_, wellKeyed, after⟩, there, otherWellKeyed, same => by
      simp only [Children.get?] at there
      split at there
      · obtain rfl := Option.some.inj there
        exact Node.same_symm wellKeyed otherWellKeyed same
      · exact Children.same_symm_of_get? after there otherWellKeyed same

end

theorem Group.same_symm {group other : Group} (wellKeyed : group.children.WellKeyed)
    (otherWellKeyed : other.children.WellKeyed) (same : group.same other = true) : other.same group = true := by
  have node : group.toNode.WellKeyed := wellKeyed
  have otherNode : other.toNode.WellKeyed := otherWellKeyed
  exact Node.same_symm node otherNode same

/-!
### Documents
-/

/-- Under each key the options have equal values, or none. -/
def Options.Same (options others : Options) : Prop :=
  ∀ key, Option.Rel (fun value other => value.same other = true) (Keyed.get? key options) (Keyed.get? key others)

theorem Document.same_iff {document other : Document} (distinct : Keyed.Distinct document.options)
    (otherDistinct : Keyed.Distinct other.options) :
    document.same other = true ↔
      document.options.Same other.options ∧ document.units.same other.units = true := by
  rw [Options.Same, Keyed.rel_get?_iff distinct otherDistinct, Document.same, Bool.and_eq_true, Bool.and_eq_true,
    beq_iff_eq, List.all_eq_true]
  refine and_congr (and_congr Iff.rfl (forall₂_congr ?_)) Iff.rfl
  intro entry _
  cases Keyed.get? entry.1 other.options <;> simp

end ShellUnits
