import ShellUnits.Proofs.Processing

/-!
References and units written out in their place.

Writing a target out where a reference stands changes the tree in which the other references are looked up. As
long as no target is a reference or contains one, this makes no difference: no look-up passes through a
reference, so what it finds lies where it lay, and holds nothing that has been written out.

Main statement: `compile_inline`.
-/

namespace ShellUnits

/-!
### Writing targets out
-/

mutual

/-- The unit at this location with some references written out: those at the chosen locations are replaced by
the units of `raw` that they address. -/
def Node.inline (raw : Group) (chosen : List String → Bool) (location : List String) : Node → Node
  | .group attributes children => .group attributes (children.inline raw chosen location)
  | .command text => .command text
  | .placeholder => .placeholder
  | .reference ids => if chosen location then (raw.get? ids).getD (.reference ids) else .reference ids

/-- The children of the group at this location with some references written out. -/
def Children.inline (raw : Group) (chosen : List String → Bool) (location : List String) : Children → Children
  | .nil => .nil
  | .cons key node rest =>
    .cons key (node.inline raw chosen (location ++ [key])) (rest.inline raw chosen location)

end

/-- The document with the references at the chosen locations written out. -/
def Document.inline (chosen : List String → Bool) (document : Document) : Document :=
  { document with
    units := { document.units with children := document.units.children.inline document.units chosen [] } }

mutual

/-- The unit is no reference and contains none. -/
def Node.ReferenceFree : Node → Prop
  | .group _ children => children.ReferenceFree
  | .command _ => True
  | .placeholder => True
  | .reference _ => False

/-- There is no reference in the row or below it. -/
def Children.ReferenceFree : Children → Prop
  | .nil => True
  | .cons _ node rest => node.ReferenceFree ∧ rest.ReferenceFree

end

/-- Each reference among these addresses a unit, and no such unit has a reference in it. -/
def Group.Closed (raw : Group) (references : List PlacedReference) : Prop :=
  ∀ reference ∈ references, ∃ target, raw.get? reference.ids = some target ∧ target.ReferenceFree

/-!
### Units without references
-/

section

variable (raw : Group) (chosen : List String → Bool)

mutual

theorem Node.ReferenceFree.unchanged (location : List String) :
    ∀ {node : Node}, node.ReferenceFree →
      node.references location = [] ∧ node.inline raw chosen location = node ∧ node.expand raw = node
  | .group _ _, free => by
      obtain ⟨none, inlined, expanded⟩ := Children.ReferenceFree.unchanged location free
      exact ⟨none, by rw [Node.inline, inlined], by rw [Node.expand, expanded]⟩
  | .command _, _ => ⟨rfl, rfl, rfl⟩
  | .placeholder, _ => ⟨rfl, rfl, rfl⟩

/-- Where no reference is, there is none to be replaced. -/
theorem Children.ReferenceFree.unchanged (location : List String) :
    ∀ {children : Children}, children.ReferenceFree →
      children.references location = [] ∧ children.inline raw chosen location = children ∧
        children.expand raw = children
  | .nil, _ => ⟨rfl, rfl, rfl⟩
  | .cons key _ _, ⟨here, after⟩ => by
      obtain ⟨none, inlined, expanded⟩ := Node.ReferenceFree.unchanged (location ++ [key]) here
      obtain ⟨noneAfter, inlinedAfter, expandedAfter⟩ := Children.ReferenceFree.unchanged location after
      refine ⟨?_, ?_, ?_⟩
      · rw [Children.references, none, noneAfter, List.append_nil]
      · rw [Children.inline, inlined, inlinedAfter]
      · rw [Children.expand, expanded, expandedAfter]

end

end

/-!
### Look-ups after writing out
-/

theorem Children.inline_eachBy (raw : Group) (chosen : List String → Bool) (location : List String) :
    Children.EachBy (Children.inline raw chosen location)
      fun key node => node.inline raw chosen (location ++ [key]) :=
  ⟨rfl, fun _ _ _ => rfl⟩

/-- A path goes through groups, which are not replaced. -/
theorem Node.inline_goesDown (raw : Group) (chosen : List String → Bool) :
    GoesDown fun node other => ∃ location, other = node.inline raw chosen location := by
  rintro attributes children other ⟨location, rfl⟩
  refine ⟨attributes, _, rfl, ?_⟩
  intro key node there
  exact ⟨_, by rw [(Children.inline_eachBy _ _ _).get?, there, Option.map_some], location ++ [key], rfl⟩

/-- A unit without references is found as it is where it was before. -/
theorem Document.get?_inline (chosen : List String → Bool) {document : Document} {ids : List String}
    {target : Node} (addressed : document.units.get? ids = some target) (free : target.ReferenceFree) :
    (document.inline chosen).units.get? ids = some target := by
  have isMatch : document.units.children.Matches
      (fun node other => ∃ location, other = node.inline document.units chosen location)
      (document.inline chosen).units.children := by
    intro key node there
    exact ⟨_, by rw [Document.inline, (Children.inline_eachBy _ _ _).get?, there, Option.map_some], [] ++ [key], rfl⟩
  obtain ⟨found, addressedToo, location, rfl⟩ :=
    Group.get?_of_matches (Node.inline_goesDown document.units chosen) isMatch addressed
  rwa [(free.unchanged document.units chosen location).2.1] at addressedToo

/-!
### Resolving after writing out
-/

section

variable {raw : Group} {chosen : List String → Bool}

mutual

theorem Node.references_inline (location : List String) :
    ∀ {node : Node}, raw.Closed (node.references location) →
      ((node.inline raw chosen location).references location).Sublist (node.references location)
  | .group _ _, closed => Children.references_inline location closed
  | .command _, _ => .refl _
  | .placeholder, _ => .refl _
  | .reference ids, closed => by
      obtain ⟨target, addressed, free⟩ := closed ⟨location, ids⟩ (List.mem_singleton_self _)
      rw [Node.inline]
      split
      · rw [addressed, Option.getD_some, (free.unchanged raw chosen location).1]
        exact List.nil_sublist _
      · exact .refl _

/-- What is written out brings no references. -/
theorem Children.references_inline (location : List String) :
    ∀ {children : Children}, raw.Closed (children.references location) →
      ((children.inline raw chosen location).references location).Sublist (children.references location)
  | .nil, _ => .refl _
  | .cons key node rest, closed => by
      simp only [Children.references, Group.Closed, List.forall_mem_append] at closed
      exact (Node.references_inline (location ++ [key]) closed.1).append
        (Children.references_inline location closed.2)

end

variable {other : Group}

mutual

theorem Node.expand_inline (agree : ∀ ids target, raw.get? ids = some target → target.ReferenceFree →
      other.get? ids = some target) (location : List String) :
    ∀ {node : Node}, raw.Closed (node.references location) →
      (node.inline raw chosen location).expand other = node.expand raw
  | .group _ _, closed => by
      rw [Node.inline, Node.expand, Node.expand, Children.expand_inline agree location closed]
  | .command _, _ => rfl
  | .placeholder, _ => rfl
  | .reference ids, closed => by
      obtain ⟨target, addressed, free⟩ := closed ⟨location, ids⟩ (List.mem_singleton_self _)
      rw [Node.inline]
      split
      · rw [addressed, Option.getD_some, (free.unchanged other chosen location).2.2, Node.expand, addressed,
          Option.getD_some]
      · rw [Node.expand, Node.expand, addressed, agree ids target addressed free]

/-- A reference is replaced by the same unit, be it written out before or looked up in the other tree. -/
theorem Children.expand_inline (agree : ∀ ids target, raw.get? ids = some target → target.ReferenceFree →
      other.get? ids = some target) (location : List String) :
    ∀ {children : Children}, raw.Closed (children.references location) →
      (children.inline raw chosen location).expand other = children.expand raw
  | .nil, _ => rfl
  | .cons key node rest, closed => by
      simp only [Children.references, Group.Closed, List.forall_mem_append] at closed
      rw [Children.inline, Children.expand, Children.expand, Node.expand_inline agree (location ++ [key]) closed.1,
        Children.expand_inline agree location closed.2]

end

end

/-- Where no target has a reference in it, any references of a document that compiles can be written out
beforehand. The document compiles to the same functions and is left the same. -/
theorem compile_inline {document : Document} {functions : List Function}
    (compiles : (compile document).result = .ok functions)
    (closed : ∀ reference ∈ document.units.references, ∀ target,
      document.units.get? reference.ids = some target → target.ReferenceFree)
    (chosen : List String → Bool) :
    (compile (document.inline chosen)).result = .ok functions ∧
      (compile (document.inline chosen)).left = (compile document).left := by
  obtain ⟨separator, ok, resolves, rfl⟩ := compile_eq_ok_iff.mp compiles
  have closedAll : document.units.Closed document.units.references := by
    intro reference mem
    obtain ⟨target, addressed⟩ := Group.firstFailure?_eq_none_iff.mp resolves reference mem
    exact ⟨target, addressed, closed reference mem target addressed⟩
  have agree : ∀ ids target, document.units.get? ids = some target → target.ReferenceFree →
      (document.inline chosen).units.get? ids = some target := fun _ _ => Document.get?_inline chosen
  have resolvesToo : (document.inline chosen).units.firstFailure? = none := by
    rw [Group.firstFailure?_eq_none_iff]
    intro reference mem
    obtain ⟨target, addressed, free⟩ := closedAll reference ((Children.references_inline [] closedAll).subset mem)
    exact ⟨target, agree _ target addressed free⟩
  have expanded : (document.inline chosen).units.expand.children = document.units.expand.children :=
    Children.expand_inline agree [] closedAll
  have processed : (document.inline chosen).processed separator = document.processed separator := by
    simp only [Document.processed, expanded]
    rfl
  obtain ⟨left, result⟩ := @compile_of_resolved (document.inline chosen) separator ok resolvesToo
  exact ⟨by rw [result, processed], by rw [left, processed, (compile_of_resolved ok resolves).1]⟩

/-- Two copies of a library, one of them in a group. -/
def Document.twoCopies : Document where
  units :=
    { children :=
        .cons "lib" (.group { directory := some "x" } (.cons "build" (.command "make") .nil)) <|
        .cons "app" (.reference ["lib"]) <|
        .cons "all" (.group {} (.cons "tool" (.reference ["lib"]) .nil)) .nil }

theorem compile_twoCopies_inline :
    (compile (Document.twoCopies.inline fun location => location = ["all", "tool"])).result =
      (compile .twoCopies).result ∧
      (Document.twoCopies.inline fun location => location = ["all", "tool"]).units.references =
        [⟨["app"], ["lib"]⟩] := by
  have compiles : (compile .twoCopies).result =
      .ok [⟨"lib", some "x", none⟩, ⟨"lib.build", some "x", some "make"⟩,
        ⟨"app", some "x", none⟩, ⟨"app.build", some "x", some "make"⟩, ⟨"all", none, none⟩,
        ⟨"all.tool", some "x", none⟩, ⟨"all.tool.build", some "x", some "make"⟩] := rfl
  have references : Document.twoCopies.units.references = [⟨["app"], ["lib"]⟩, ⟨["all", "tool"], ["lib"]⟩] := rfl
  have closed : ∀ reference ∈ Document.twoCopies.units.references, ∀ target,
      Document.twoCopies.units.get? reference.ids = some target → target.ReferenceFree := by
    intro reference mem target addressed
    rw [references] at mem
    simp only [List.mem_cons, List.not_mem_nil, or_false] at mem
    rcases mem with rfl | rfl
    · exact Option.some.inj addressed ▸ ⟨trivial, trivial⟩
    · exact Option.some.inj addressed ▸ ⟨trivial, trivial⟩
  exact ⟨(compile_inline compiles closed _).1.trans compiles.symm, by decide⟩

/-- A target that is a reference itself is copied as it stands, so writing it out makes a difference. -/
example :
    let chain : Document :=
      { units :=
          { children :=
              .cons "a" (.reference ["b"]) <| .cons "b" (.reference ["c"]) <| .cons "c" .placeholder .nil } }
    (compile chain).left.units.functions.map Function.command = [some "$(c)", none, none] ∧
      (compile (chain.inline fun location => location = ["b"])).left.units.functions.map Function.command =
        [none, none, none] := by decide

end ShellUnits
