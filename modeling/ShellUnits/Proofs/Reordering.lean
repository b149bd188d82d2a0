import ShellUnits.Proofs.Processing
import ShellUnits.Proofs.Same

/-!
The order of options and units.

Documents that are equal up to order compile alike. Options and units are found by their keys, so the same
separator is chosen and references address equal units; names and directories are handed down and do not depend
on what stands beside a unit. All that changes is the order in which the functions are listed.

Main statement: `compile_perm_of_same`.
-/

namespace ShellUnits

/-!
### Options in another order
-/

/-- Equal values have the same text. -/
theorem Value.asText?_of_same :
    ∀ {value other : Value}, value.same other = true → other.asText? = value.asText?
  | .tagged _ value, .tagged _ other, same => by
      rw [Value.same, Bool.and_eq_true] at same
      rw [Value.asText?, Value.asText?, Value.asText?_of_same same.2]
  | .null, other, same => by cases other <;> simp_all [Value.same, Value.asText?]
  | .bool _, other, same => by cases other <;> simp_all [Value.same, Value.asText?]
  | .number _, other, same => by cases other <;> simp_all [Value.same, Value.asText?]
  | .string _, other, same => by cases other <;> simp_all [Value.same, Value.asText?]
  | .sequence _, other, same => by cases other <;> simp_all [Value.same, Value.asText?]
  | .mapping _, other, same => by cases other <;> simp_all [Value.same, Value.asText?]

theorem Value.eq_null_iff_of_same {value other : Value} (same : value.same other = true) :
    other = .null ↔ value = .null := by
  cases value <;> cases other <;> simp_all [Value.same]

namespace Options

theorem chosenSeparator_eq_ok_iff_of_rel {separator : Separator} {value other : Option Value}
    (rel : Option.Rel (fun value other => value.same other = true) value other) :
    chosenSeparator other = .ok separator ↔ chosenSeparator value = .ok separator := by
  cases rel with
  | none => exact Iff.rfl
  | some same =>
      rw [chosenSeparator_some_eq_ok_iff, chosenSeparator_some_eq_ok_iff, Separator.ofValue?,
        Separator.ofValue?, Value.asText?_of_same same, Value.eq_null_iff_of_same same]

section

variable {options others : Options}

/-- Normalizing chooses the separator by the values under two keys. -/
theorem Same.normalize_result_iff (same : options.Same others) (separator : Separator) :
    others.normalize.result = .ok separator ↔ options.normalize.result = .ok separator := by
  rw [normalize_result_eq_ok_iff, normalize_result_eq_ok_iff]
  refine chosenSeparator_eq_ok_iff_of_rel ?_
  have main := same separatorKey
  have aliased := same separatorAlias
  unfold givenSeparator
  generalize Keyed.get? separatorKey options = value, Keyed.get? separatorKey others = other at main
  cases main with
  | some sameValue => exact .some sameValue
  | none => exact aliased

theorem Same.normalize (same : options.Same others) (distinct : Keyed.Distinct options)
    (othersDistinct : Keyed.Distinct others) {separator : Separator}
    (ok : options.normalize.result = .ok separator) (okToo : others.normalize.result = .ok separator) :
    options.normalize.left.Same others.normalize.left := by
  intro key
  rw [get?_normalize distinct ok, get?_normalize othersDistinct okToo]
  split
  · exact .some (by simp [Value.same])
  · split
    · exact .none
    · exact same key

end

end Options

/-!
### References in another order
-/

mutual

theorem Node.references_of_same {location : List String} :
    ∀ {node other : Node}, node.same other = true → node.references location ⊆ other.references location
  | .group attributes children, other, same => by
      obtain ⟨otherAttributes, others, rfl, -⟩ := Node.same_goesDown attributes children other same
      exact Children.references_of_within (Node.same_group_iff.mp same).2.2
  | .command _, _, _ => List.nil_subset _
  | .placeholder, _, _ => List.nil_subset _
  | .reference _, _, same => by
      obtain rfl := Node.eq_of_same rfl same
      exact List.Subset.refl _

/-- A reference stands at the same location in equal rows. -/
theorem Children.references_of_within {location : List String} :
    ∀ {children others : Children}, children.within others = true →
      children.references location ⊆ others.references location
  | .nil, _, _ => List.nil_subset _
  | .cons key node rest, others, within => by
      obtain ⟨⟨found, there, same⟩, after⟩ := Children.within_cons_iff.mp within
      exact List.append_subset.mpr
        ⟨List.Subset.trans (Node.references_of_same same) (Children.references_of_get? there),
          Children.references_of_within after⟩

end

section

variable {group other : Group}

theorem Group.within_of_same (same : group.same other = true) :
    group.children.within other.children = true :=
  (Node.same_group_iff.mp same).2.2

/-- What ids address in one of two equal trees is equal to what they address in the other. -/
theorem Group.get?_of_same (same : group.same other = true) {ids : List String} {target : Node}
    (addressed : group.get? ids = some target) :
    ∃ found, other.get? ids = some found ∧ target.same found = true := by
  obtain ⟨_, others, isOther, isMatch⟩ := Node.same_goesDown _ _ _ same
  obtain ⟨-, rfl⟩ := Node.group.inj isOther
  exact Group.get?_of_matches Node.same_goesDown isMatch addressed

/-- Where all references of a tree can be replaced, so can those of an equal one. -/
theorem Group.firstFailure?_of_same (same : group.same other = true) (sameBack : other.same group = true)
    (resolves : group.firstFailure? = none) : other.firstFailure? = none := by
  rw [Group.firstFailure?_eq_none_iff] at resolves ⊢
  intro reference mem
  have memToo : reference ∈ group.references := Children.references_of_within (Group.within_of_same sameBack) mem
  obtain ⟨target, addressed⟩ := resolves reference memToo
  obtain ⟨found, addressedToo, -⟩ := Group.get?_of_same same addressed
  exact ⟨found, addressedToo⟩

end

/-!
### Passes over units in another order
-/

section

variable {raw other : Group}

mutual

theorem Node.same_expand (agree : raw.same other = true) {location : List String} :
    ∀ {node twin : Node}, node.same twin = true →
      (∀ reference ∈ node.references location, ∃ target, raw.get? reference.ids = some target) →
        (node.expand raw).same (twin.expand other) = true
  | .group attributes children, twin, same, resolve => by
      obtain ⟨_, twins, rfl, -⟩ := Node.same_goesDown attributes children twin same
      obtain ⟨rfl, length, within⟩ := Node.same_group_iff.mp same
      refine Node.same_group_iff.mpr ⟨rfl, ?_, Children.within_expand agree within resolve⟩
      rw [(Children.expand_eachBy raw).length, (Children.expand_eachBy other).length, length]
  | .command _, _, same, _ => by
      obtain rfl := Node.eq_of_same rfl same
      exact same
  | .placeholder, _, same, _ => by
      obtain rfl := Node.eq_of_same rfl same
      exact same
  | .reference ids, _, same, resolve => by
      obtain rfl := Node.eq_of_same rfl same
      obtain ⟨target, addressed⟩ := resolve ⟨location, ids⟩ (List.mem_singleton_self _)
      obtain ⟨found, addressedToo, sameTarget⟩ := Group.get?_of_same agree addressed
      rw [Node.expand, Node.expand, addressed, addressedToo]
      exact sameTarget

/-- Equal references are replaced by equal copies. -/
theorem Children.within_expand (agree : raw.same other = true) {location : List String} :
    ∀ {children twins : Children}, children.within twins = true →
      (∀ reference ∈ children.references location, ∃ target, raw.get? reference.ids = some target) →
        (children.expand raw).within (twins.expand other) = true
  | .nil, _, _, _ => rfl
  | .cons key node rest, twins, within, resolve => by
      obtain ⟨⟨found, there, same⟩, after⟩ := Children.within_cons_iff.mp within
      simp only [Children.references, List.forall_mem_append] at resolve
      refine Children.within_cons_iff.mpr
        ⟨⟨found.expand other, ?_, Node.same_expand agree same resolve.1⟩,
          Children.within_expand agree after resolve.2⟩
      rw [(Children.expand_eachBy other).get?, there, Option.map_some]

end

end

mutual

theorem Node.same_derive (separator : Separator) (directory parent : Option String) (key : String) :
    ∀ {node twin : Node}, node.same twin = true →
      (node.derive separator directory parent key).same (twin.derive separator directory parent key) = true
  | .group attributes children, twin, same => by
      obtain ⟨_, twins, rfl, -⟩ := Node.same_goesDown attributes children twin same
      obtain ⟨rfl, length, within⟩ := Node.same_group_iff.mp same
      refine Node.same_group_iff.mpr ⟨rfl, ?_, Children.within_derive separator _ _ within⟩
      rw [(Children.derive_eachBy _ _ _).length, (Children.derive_eachBy _ _ _).length, length]
  | .command _, _, same => by
      obtain rfl := Node.eq_of_same rfl same
      simp [Node.derive, Node.same, Children.within]
  | .placeholder, _, same => by
      obtain rfl := Node.eq_of_same rfl same
      simp [Node.derive, Node.same, Children.within]
  | .reference _, _, same => by
      obtain rfl := Node.eq_of_same rfl same
      simp [Node.derive, Node.same, Children.within]

/-- What is derived for a unit depends on its key and on what is handed down to it. -/
theorem Children.within_derive (separator : Separator) (directory parent : Option String) :
    ∀ {children twins : Children}, children.within twins = true →
      (children.derive separator directory parent).within (twins.derive separator directory parent) = true
  | .nil, _, _ => rfl
  | .cons key node rest, twins, within => by
      obtain ⟨⟨found, there, same⟩, after⟩ := Children.within_cons_iff.mp within
      refine Children.within_cons_iff.mpr
        ⟨⟨_, ?_, Node.same_derive separator directory parent key same⟩,
          Children.within_derive separator directory parent after⟩
      rw [(Children.derive_eachBy separator directory parent).get?, there, Option.map_some]

end

/-!
### Functions in another order
-/

/-- A unit can be listed first: what is left is listed as before. -/
theorem Children.functions_erase {key : String} {node : Node} :
    ∀ {children : Children}, children.get? key = some node →
      children.functions.Perm (node.functions ++ (children.erase key).functions) ∧
        children.length = (children.erase key).length + 1
  | .cons k first rest, there => by
      simp only [Children.get?] at there
      simp only [Children.erase]
      split at there
      · rename_i here
        obtain rfl := Option.some.inj there
        rw [if_pos here]
        exact ⟨.refl _, rfl⟩
      · rename_i elsewhere
        obtain ⟨perm, length⟩ := Children.functions_erase there
        rw [if_neg elsewhere]
        refine ⟨?_, by rw [Children.length, Children.length, length]⟩
        exact (perm.append_left _).trans (List.perm_append_comm_assoc _ _ _)

/-- Units are found also among the others without the unit under a key that none of them has. -/
theorem Children.within_erase {key : String} {others : Children} :
    ∀ {children : Children}, key ∉ children.keys → children.within others = true →
      children.within (others.erase key) = true
  | .nil, _, _ => rfl
  | .cons k node rest, fresh, within => by
      rw [Children.keys, List.mem_cons, not_or] at fresh
      obtain ⟨⟨found, there, same⟩, after⟩ := Children.within_cons_iff.mp within
      refine Children.within_cons_iff.mpr ⟨⟨found, ?_, same⟩, Children.within_erase fresh.2 after⟩
      rw [Children.get?_eq_get?_toList] at there ⊢
      rw [Children.toList_erase, Keyed.get?_erase_of_ne (Ne.symm fresh.1), there]

mutual

theorem Node.functions_perm :
    ∀ {node other : Node}, node.WellKeyed → node.same other = true → node.functions.Perm other.functions
  | .group attributes children, other, wellKeyed, same => by
      obtain ⟨_, others, rfl, -⟩ := Node.same_goesDown attributes children other same
      obtain ⟨rfl, length, within⟩ := Node.same_group_iff.mp same
      exact (Children.functions_perm wellKeyed length within).append_left _
  | .command _, _, _, same => by
      obtain rfl := Node.eq_of_same rfl same
      exact .refl _
  | .placeholder, _, _, same => by
      obtain rfl := Node.eq_of_same rfl same
      exact .refl _
  | .reference _, _, _, same => by
      obtain rfl := Node.eq_of_same rfl same
      exact .refl _

/-- Rows that are equal up to order have the same functions. The first unit of the one is taken out of the
other, and the rest is compared with what is left. -/
theorem Children.functions_perm :
    ∀ {children others : Children}, children.WellKeyed → children.length = others.length →
      children.within others = true → children.functions.Perm others.functions
  | .nil, .nil, _, _, _ => .refl _
  | .cons key node rest, others, ⟨fresh, below, after⟩, length, within => by
      obtain ⟨⟨found, there, same⟩, later⟩ := Children.within_cons_iff.mp within
      obtain ⟨perm, shorter⟩ := Children.functions_erase there
      have left : rest.length = (others.erase key).length := by
        rw [Children.length, shorter] at length
        exact Nat.succ.inj length
      have first := Node.functions_perm below same
      have behind := Children.functions_perm after left (Children.within_erase fresh later)
      exact (first.append behind).trans perm.symm

end

/-!
### Documents in another order
-/

/-- Equal trees are expanded and derived to equal rows, which have the same functions. -/
theorem Group.derived_of_same {group other : Group} (wellKeyed : group.children.WellKeyed)
    (same : group.same other = true) (resolves : group.firstFailure? = none) (separator : Separator)
    (directory : Option String) :
    let children := group.expand.children.derive separator directory none
    let others := other.expand.children.derive separator directory none
    children.length = others.length ∧ children.within others = true ∧
      children.functions.Perm others.functions := by
  intro children others
  obtain ⟨-, length, within⟩ := Node.same_group_iff.mp same
  have expanded := Children.within_expand same within (Group.firstFailure?_eq_none_iff.mp resolves)
  have derived : children.within others = true := Children.within_derive separator directory none expanded
  have lengths : children.length = others.length := by
    calc children.length
        _ = group.expand.children.length := (Children.derive_eachBy _ _ _).length _
        _ = group.children.length := (Children.expand_eachBy _).length _
        _ = other.children.length := length
        _ = other.expand.children.length := ((Children.expand_eachBy _).length _).symm
        _ = others.length := ((Children.derive_eachBy _ _ _).length _).symm
  have distinct : children.WellKeyed :=
    (Children.WellKeyed.expand wellKeyed wellKeyed).derive separator directory none
  exact ⟨lengths, derived, Children.functions_perm distinct lengths derived⟩

section

variable {document other : Document}

/-- Equal documents are left equal, and have the same functions. -/
theorem Document.processed_same (wellKeyed : document.WellKeyed) (otherWellKeyed : other.WellKeyed)
    (same : document.same other = true) {separator : Separator}
    (ok : document.options.normalize.result = .ok separator)
    (okToo : other.options.normalize.result = .ok separator) (resolves : document.units.firstFailure? = none) :
    (document.processed separator).same (other.processed separator) = true ∧
      (document.processed separator).units.functions.Perm (other.processed separator).units.functions := by
  obtain ⟨options, units⟩ := (Document.same_iff wellKeyed.distinct otherWellKeyed.distinct).mp same
  have attributes : document.units.attributes = other.units.attributes := (Node.same_group_iff.mp units).1
  have optionsLeft := options.normalize wellKeyed.distinct otherWellKeyed.distinct ok okToo
  have distinct := Options.normalize_distinct wellKeyed.distinct ok
  have otherDistinct := Options.normalize_distinct otherWellKeyed.distinct okToo
  obtain ⟨length, within, perm⟩ := Group.derived_of_same wellKeyed.units units resolves separator
    (nonEmpty document.units.attributes.directory)
  simp only [Document.processed, ← attributes]
  refine ⟨(Document.same_iff distinct otherDistinct).mpr ⟨optionsLeft, ?_⟩, perm⟩
  exact Node.same_group_iff.mpr ⟨rfl, length, within⟩

/-- Documents that are equal up to the order of options and units compile alike: both or neither, to the same
functions up to order, and they are left equal up to order. -/
theorem compile_perm_of_same (wellKeyed : document.WellKeyed) (otherWellKeyed : other.WellKeyed)
    (same : document.same other = true) :
    ((∃ functions, (compile document).result = .ok functions) ↔
        ∃ functions, (compile other).result = .ok functions) ∧
      ∀ functions others, (compile document).result = .ok functions → (compile other).result = .ok others →
        functions.Perm others ∧ (compile document).left.same (compile other).left = true := by
  obtain ⟨options, units⟩ := (Document.same_iff wellKeyed.distinct otherWellKeyed.distinct).mp same
  have unitsBack : other.units.same document.units = true :=
    Group.same_symm wellKeyed.units otherWellKeyed.units units
  have chooses := options.normalize_result_iff
  constructor
  · constructor
    · rintro ⟨functions, compiles⟩
      obtain ⟨separator, ok, resolves, -⟩ := compile_eq_ok_iff.mp compiles
      exact ⟨_, compile_eq_ok_iff.mpr
        ⟨separator, (chooses separator).mpr ok, Group.firstFailure?_of_same units unitsBack resolves, rfl⟩⟩
    · rintro ⟨functions, compiles⟩
      obtain ⟨separator, ok, resolves, -⟩ := compile_eq_ok_iff.mp compiles
      exact ⟨_, compile_eq_ok_iff.mpr
        ⟨separator, (chooses separator).mp ok, Group.firstFailure?_of_same unitsBack units resolves, rfl⟩⟩
  · intro functions others compiles compilesToo
    obtain ⟨separator, ok, resolves, rfl⟩ := compile_eq_ok_iff.mp compiles
    obtain ⟨separatorToo, okToo, resolvesToo, rfl⟩ := compile_eq_ok_iff.mp compilesToo
    obtain rfl : separator = separatorToo := Except.ok.inj (((chooses separator).mpr ok).symm.trans okToo)
    obtain ⟨left, perm⟩ := Document.processed_same wellKeyed otherWellKeyed same ok okToo resolves
    rw [(compile_of_resolved ok resolves).1, (compile_of_resolved okToo resolvesToo).1]
    exact ⟨perm, left⟩

end

/-- A library with two units and a copy of it. -/
def Document.library : Document where
  options := [("sep", .string "-"), ("note", .bool true)]
  units :=
    { children :=
        .cons "lib" (.group {} (.cons "build" (.command "make") (.cons "test" (.command "check") .nil))) <|
        .cons "app" (.reference ["lib"]) .nil }

/-- The same with all options and units in reverse. -/
def Document.libraryReversed : Document where
  options := [("note", .bool true), ("sep", .string "-")]
  units :=
    { children :=
        .cons "app" (.reference ["lib"]) <|
        .cons "lib" (.group {} (.cons "test" (.command "check") (.cons "build" (.command "make") .nil))) .nil }

theorem compile_libraryReversed :
    ∃ functions others, (compile .library).result = .ok functions ∧
      (compile .libraryReversed).result = .ok others ∧
      functions.map Function.name = ["lib", "lib-build", "lib-test", "app", "app-build", "app-test"] ∧
      others.map Function.name = ["app", "app-test", "app-build", "lib", "lib-test", "lib-build"] ∧
      functions.Perm others ∧ (compile .library).left.same (compile .libraryReversed).left = true := by
  have compiles : (compile .library).result =
      .ok [⟨"lib", none, none⟩, ⟨"lib-build", none, some "make"⟩, ⟨"lib-test", none, some "check"⟩,
        ⟨"app", none, none⟩, ⟨"app-build", none, some "make"⟩, ⟨"app-test", none, some "check"⟩] := rfl
  have wellKeyed : Document.library.WellKeyed := by decide
  have reversedWellKeyed : Document.libraryReversed.WellKeyed := by decide
  have same : Document.library.same .libraryReversed = true := by decide
  obtain ⟨both, alike⟩ := compile_perm_of_same wellKeyed reversedWellKeyed same
  obtain ⟨others, reversedCompiles⟩ := both.mp ⟨_, compiles⟩
  refine ⟨_, others, compiles, reversedCompiles, by decide, ?_, alike _ _ compiles reversedCompiles⟩
  obtain rfl := Except.ok.inj reversedCompiles
  decide

end ShellUnits
