import Mathlib.Data.List.Forall2
import ShellUnits.Proofs.Inlining
import ShellUnits.Proofs.Locations

/-!
References that resolving leaves over, and the warnings about them.

Copies are not looked through again, so a reference whose target is a reference or holds some leaves those over.
The stage that assigns directories makes each of them a group whose command is the text of the reference, and
warns about it. What the stage reports, it reports along its walk; the functions are listed later, from a tree
that has no references any more. Both follow the locations of the expanded tree: the warnings are those of the
locations at which a reference stands, and the functions are those of all locations.

Main statements: `Children.walk_pathAssigner_state`, `Pass.during_eq`, `compile_during_assignPaths`,
`compile_warns_of_leftOver`.
-/

namespace ShellUnits

/-- The ids of the unit, if it is a reference. -/
def Node.reference? : Node → Option (List String)
  | .group _ _ => none
  | .command _ => none
  | .placeholder => none
  | .reference ids => some ids

/-!
### What is left over
-/

mutual

theorem Node.filterMap_reference?_locations (above : Trail) (key : String) :
    ∀ node : Node,
      (node.locations above key).filterMap (fun location => location.node.reference?) = node.referenceIds
  | .group attributes children => by
      rw [Node.locations, List.filterMap_cons_none rfl]
      exact Children.filterMap_reference?_locations (above ++ [(key, .group attributes children)]) children
  | .command _ => rfl
  | .placeholder => rfl
  | .reference _ => rfl

/-- The references among the locations of a tree are those that the recursion over the tree lists. -/
theorem Children.filterMap_reference?_locations (above : Trail) :
    ∀ children : Children,
      (children.locations above).filterMap (fun location => location.node.reference?) = children.referenceIds
  | .nil => rfl
  | .cons key node rest => by
      rw [Children.locations, Children.referenceIds, List.filterMap_append,
        Node.filterMap_reference?_locations above key node, Children.filterMap_reference?_locations above rest]

end

mutual

theorem Node.referenceIds_eq_nil_iff : ∀ {node : Node}, node.referenceIds = [] ↔ node.ReferenceFree
  | .group _ _ => Children.referenceIds_eq_nil_iff
  | .command _ => ⟨fun _ => trivial, fun _ => rfl⟩
  | .placeholder => ⟨fun _ => trivial, fun _ => rfl⟩
  | .reference ids => ⟨List.cons_ne_nil ids [], False.elim⟩

/-- A row has no references in it exactly when none are listed. -/
theorem Children.referenceIds_eq_nil_iff :
    ∀ {children : Children}, children.referenceIds = [] ↔ children.ReferenceFree
  | .nil => ⟨fun _ => trivial, fun _ => rfl⟩
  | .cons _ _ _ =>
      List.append_eq_nil_iff.trans (and_congr Node.referenceIds_eq_nil_iff Children.referenceIds_eq_nil_iff)

end

/-- Whether a reference stands at the location. -/
def Location.isReference (location : Location) : Bool :=
  location.node.reference?.isSome

/-- Expanding leaves references over exactly when a reference of the raw tree has a target that is one or has one
in it. -/
theorem Group.exists_leftOver_iff {group : Group} (resolves : group.firstFailure? = none) :
    (∃ location ∈ group.expand.locations, location.isReference) ↔
      ∃ reference ∈ group.references, ∃ target,
        group.get? reference.ids = some target ∧ ¬ target.ReferenceFree := by
  have listed : (∃ location ∈ group.expand.locations, location.isReference) ↔
      group.expand.children.referenceIds ≠ [] := by
    rw [← Children.filterMap_reference?_locations [], Ne, List.filterMap_eq_nil_iff]
    simp only [Location.isReference, Option.isSome_iff_ne_none, Group.locations, not_forall, exists_prop]
  rw [listed, Group.expand, Children.referenceIds_expand_eq, Ne, List.flatMap_eq_nil_iff,
    ← Children.map_ids_references [], List.forall_mem_map, ← Group.references]
  rw [Group.firstFailure?_eq_none_iff] at resolves
  simp only [not_forall, exists_prop, Node.referenceIds_eq_nil_iff]
  refine exists_congr fun reference => and_congr_right fun mem => ?_
  obtain ⟨target, addressed⟩ := resolves reference mem
  rw [addressed, Option.getD_some]
  simp only [Option.some.injEq, exists_eq_left']

/-!
### What the stage reports
-/

/-- What is reported about the unit of a location when directories are assigned. -/
def Location.warning? (location : Location) : Option Event :=
  location.node.reference?.map (.literalReference location.key)

/-- Directories have no part in what is reported, only the units and their order do. -/
theorem Children.walk_pathAssigner_state :
    ∀ (children : Children) (inherited : Option String) (events : List Event) (above : Trail),
      (children.walk pathAssigner inherited events).state =
        events ++ (children.locations above).filterMap Location.warning?
  | .nil, _, events, _ => (List.append_nil events).symm
  | .cons key (.group attributes children) rest, inherited, events, above => by
      rw [Children.walk_cons pathAssigner_keepsDepth]
      simp only [pathAssigner, Walked.leave_of_ok (Walked.result_eq_ok _), Walked.prepend]
      rw [Children.walk_pathAssigner_state rest _ _ above,
        Children.walk_pathAssigner_state children _ _ (above ++ [(key, .group attributes children)]),
        Children.locations, Node.locations, List.filterMap_append, List.filterMap_cons_none rfl, List.append_assoc]
  | .cons key (.command text) rest, inherited, events, above => by
      rw [Children.walk_cons pathAssigner_keepsDepth]
      simp only [pathAssigner, Walked.prepend]
      rw [Children.walk_pathAssigner_state rest _ _ above]
      rfl
  | .cons key .placeholder rest, inherited, events, above => by
      rw [Children.walk_cons pathAssigner_keepsDepth]
      simp only [pathAssigner, Walked.prepend]
      rw [Children.walk_pathAssigner_state rest _ _ above]
      rfl
  | .cons key (.reference ids) rest, inherited, events, above => by
      rw [Children.walk_cons pathAssigner_keepsDepth]
      simp only [pathAssigner, Walked.prepend]
      rw [Children.walk_pathAssigner_state rest _ _ above, List.append_assoc]
      rfl

/-- Assigning directories reports the references of the tree in pre-order, and nothing else. -/
theorem Group.assignPaths_snd (units : Group) :
    units.assignPaths.2 = units.locations.filterMap Location.warning? := by
  simp only [Group.assignPaths, Group.walk_eq_walk_children]
  exact Children.walk_pathAssigner_state units.children _ [] []

theorem Location.eq_of_warning? {location : Location} {event : Event} (warns : location.warning? = some event) :
    ∃ ids, location.node = .reference ids ∧ event = .literalReference location.key ids := by
  obtain ⟨above, key, node⟩ := location
  cases node with
  | reference ids => exact ⟨ids, rfl, (Option.some.inj warns).symm⟩
  | group attributes children => simp [Location.warning?, Node.reference?] at warns
  | command text => simp [Location.warning?, Node.reference?] at warns
  | placeholder => simp [Location.warning?, Node.reference?] at warns

/-- What was reported while a stage ran for the first time: all that stands behind its announcement and in front
of the next one. -/
def Pass.during {α β : Type} (pass : Pass α β) (stage : Stage) : List Event :=
  ((pass.events.dropWhile fun event => event ≠ .runningStage stage).drop 1).takeWhile
    fun event => event.stage? = none

/-- What a stage reports is found again between its announcement and the next one. -/
theorem Pass.during_eq {α β : Type} {pass : Pass α β} {stage next : Stage} {before own after : List Event}
    (reported : pass.events = before ++ (.runningStage stage :: own) ++ (.runningStage next :: after))
    (first : .runningStage stage ∉ before) (quiet : own.filterMap Event.stage? = []) :
    pass.during stage = own := by
  have skipped : ∀ event ∈ before, decide (event ≠ .runningStage stage) = true := by
    intro event mem
    rw [decide_eq_true_iff]
    rintro rfl
    exact first mem
  have kept : ∀ event ∈ own, decide (event.stage? = none) = true := by
    intro event mem
    rw [decide_eq_true_iff]
    exact List.filterMap_eq_nil_iff.mp quiet event mem
  have stops (rest : List Event) : (Event.runningStage stage :: rest).dropWhile
      (fun event => event ≠ .runningStage stage) = .runningStage stage :: rest := by
    simp
  have ends : (Event.runningStage next :: after).takeWhile (fun event => event.stage? = none) = [] := by
    simp [Event.stage?]
  rw [Pass.during, reported, List.append_assoc, List.dropWhile_append_of_pos skipped, List.cons_append, stops,
    List.drop_one, List.tail_cons, List.takeWhile_append_of_pos kept, ends, List.append_nil]

/-- In a run without failures the stage that assigns directories sees the expanded tree and warns about each
reference in it, in pre-order. -/
theorem compile_during_assignPaths {document : Document} {separator : Separator}
    (ok : document.options.normalize.result = .ok separator) (resolves : document.units.firstFailure? = none) :
    (compile document).during .assignPaths = document.units.expand.locations.filterMap Location.warning? := by
  have reported : (compile document).events = (Pipeline.standard.run document).events := rfl
  rw [Pipeline.standard_run_eq ok resolves] at reported
  dsimp only at reported
  rw [← List.append_assoc, ← List.append_assoc] at reported
  rw [Pass.during_eq reported, Group.assignPaths_snd]
  · -- The stages in front announce themselves and no others.
    have normalizing := List.filterMap_eq_nil_iff.mp (Options.normalize_events document.options)
    have resolving := List.filterMap_eq_nil_iff.mp (Group.resolveReferences_events document.units)
    intro mem
    simp only [List.mem_append, List.mem_cons] at mem
    rcases mem with (same | mem) | (same | mem)
    · simp at same
    · exact absurd (normalizing _ mem) (by simp [Event.stage?])
    · simp at same
    · exact absurd (resolving _ mem) (by simp [Event.stage?])
  · rw [Group.assignPaths_snd, List.filterMap_eq_nil_iff]
    intro event mem
    obtain ⟨location, -, warns⟩ := List.mem_filterMap.mp mem
    obtain ⟨ids, -, rfl⟩ := Location.eq_of_warning? warns
    rfl

/-!
### Warnings and functions
-/

/-- The event warns about this function: it comes from a location at which a reference was left over, it has the
text of the reference for its command, and key and text are what the event shows. -/
def Event.WarnsOf (event : Event) (emitted : Location × Function) : Prop :=
  ∃ ids, emitted.1.node = .reference ids ∧ emitted.2.command = some (formatReference ids) ∧
    event = .literalReference emitted.1.key ids ∧
    event.fields = [("key", emitted.1.key), ("reference", formatReference ids)]

/-- Warnings and functions follow the same locations. -/
theorem Location.warnings_forall₂ {function : Location → Function}
    (commands : ∀ location, (function location).command = location.node.command?) (locations : List Location) :
    List.Forall₂ Event.WarnsOf (locations.filterMap Location.warning?)
      ((locations.map fun location => (location, function location)).filter
        fun emitted => emitted.1.isReference) := by
  induction locations with
  | nil => exact .nil
  | cons location rest ih =>
      rw [List.map_cons]
      cases here : location.node.reference? with
      | none =>
          rw [List.filterMap_cons_none (by rw [Location.warning?, here, Option.map_none]),
            List.filter_cons_of_neg (by simp [Location.isReference, here])]
          exact ih
      | some ids =>
          have warns : location.warning? = some (.literalReference location.key ids) := by
            rw [Location.warning?, here, Option.map_some]
          obtain ⟨_, isReference, same⟩ := Location.eq_of_warning? warns
          obtain ⟨-, rfl⟩ := Event.literalReference.inj same
          rw [List.filterMap_cons_some warns, List.filter_cons_of_pos (by simp [Location.isReference, here])]
          refine .cons ⟨ids, isReference, ?_, rfl, rfl⟩ ih
          rw [commands, isReference, Node.command?]

/-- Where a document compiles, each function comes from a location of the tree that resolving leaves, in order, and
so does the cursor yield them. Those from locations at which a reference was left over are, one by one and in the
same order, what the warnings of the stage that assigns directories are about. There is such a function exactly
when a reference of the raw tree addresses a reference or a group that has one in it. -/
theorem compile_warns_of_leftOver {document : Document} {functions : List Function}
    (compiles : (compile document).result = .ok functions) :
    ∃ separator emitted leftOver,
      document.options.normalize.result = .ok separator ∧
        emitted = document.units.resolveReferences.left.locations.map (fun location =>
          (location, location.function separator document.units.attributes.directory)) ∧
        functions = emitted.map Prod.snd ∧
        (∀ count, (Cursor.ofGroup (compile document).left.units).take count = functions.take count) ∧
        leftOver = emitted.filter (fun entry => entry.1.isReference) ∧
        List.Forall₂ Event.WarnsOf
          (((compile document).during .assignPaths).filter fun event => event.level = .warn) leftOver ∧
        (leftOver ≠ [] ↔
          ∃ reference ∈ document.units.references, ∃ target,
            document.units.get? reference.ids = some target ∧ ¬ target.ReferenceFree) := by
  obtain ⟨separator, ok, resolves, rfl⟩ := compile_eq_ok_iff.mp compiles
  have expanded : document.units.resolveReferences.left = document.units.expand :=
    Group.resolveReferences_left_of_ok resolves
  have warnings : ((compile document).during .assignPaths).filter (fun event => event.level = .warn) =
      document.units.expand.locations.filterMap Location.warning? := by
    rw [compile_during_assignPaths ok resolves, List.filter_eq_self]
    intro event mem
    obtain ⟨location, -, warns⟩ := List.mem_filterMap.mp mem
    obtain ⟨ids, -, rfl⟩ := Location.eq_of_warning? warns
    rfl
  refine ⟨separator, _, _, ok, rfl, ?_, ?_, rfl, ?_, ?_⟩
  · rw [expanded, List.map_map, Document.functions_processed]
    rfl
  · intro count
    rw [(compile_of_resolved ok resolves).1, Cursor.take_eq_take_remaining, Cursor.remaining_ofGroup]
  · rw [warnings, expanded]
    exact Location.warnings_forall₂ (fun _ => rfl) document.units.expand.locations
  · rw [← Group.exists_leftOver_iff resolves, expanded, Ne, List.filter_eq_nil_iff, List.forall_mem_map]
    simp only [not_forall, not_not, exists_prop]

/-- A group with a copy of itself, further copies of it along a chain, a reference to itself, and one that leaves
nothing over. -/
def Document.leavesOver : Document where
  units :=
    { children :=
        .cons "lib" (.group {} (.cons "build" (.command "make") (.cons "again" (.reference ["lib"]) .nil))) <|
        .cons "app" (.reference ["lib"]) <|
        .cons "chain" (.reference ["app"]) <|
        .cons "self" (.reference ["self"]) <|
        .cons "copy" (.reference ["lib", "build"]) .nil }

theorem compile_leavesOver_warns :
    ∃ functions, (compile .leavesOver).result = .ok functions ∧
      ∃ leftOver : List (Location × Function), leftOver.map Prod.snd =
          [⟨"lib.again.again", none, some "$(lib)"⟩, ⟨"app.again", none, some "$(lib)"⟩,
            ⟨"chain", none, some "$(lib)"⟩, ⟨"self", none, some "$(self)"⟩] ∧
        List.Forall₂ Event.WarnsOf
          [.literalReference "again" ["lib"], .literalReference "again" ["lib"],
            .literalReference "chain" ["lib"], .literalReference "self" ["self"]] leftOver ∧
        ∃ reference ∈ Document.leavesOver.units.references, ∃ target,
          Document.leavesOver.units.get? reference.ids = some target ∧ ¬ target.ReferenceFree := by
  have compiles : (compile .leavesOver).result = .ok (compile .leavesOver).left.units.functions := rfl
  obtain ⟨separator, emitted, leftOver, ok, locations, -, -, chosen, warned, arises⟩ :=
    compile_warns_of_leftOver compiles
  have dot : Document.leavesOver.options.normalize.result = .ok .dot := rfl
  have warnings : ((compile .leavesOver).during .assignPaths).filter (fun event => event.level = .warn) =
      [.literalReference "again" ["lib"], .literalReference "again" ["lib"],
        .literalReference "chain" ["lib"], .literalReference "self" ["self"]] := by decide
  rw [dot, Except.ok.injEq] at ok
  subst ok locations chosen
  rw [warnings] at warned
  exact ⟨_, compiles, _, by decide, warned, arises.mp (List.ne_nil_of_length_pos (by decide))⟩

end ShellUnits
