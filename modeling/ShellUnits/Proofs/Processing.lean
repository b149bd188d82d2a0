import ShellUnits.Pipeline
import ShellUnits.Proofs.Derivation
import ShellUnits.Proofs.Expansion
import ShellUnits.Proofs.Options

/-!
How a run of the standard pipeline ends.

A run either meets a refused separator and stops before it looks at the units, or meets a reference that
cannot be replaced and stops before it derives anything, or goes through and leaves the document that
`Document.processed` describes.

Derived attributes that are there beforehand have no part in this: trees that differ in them only are
resolved alike and leave the same groups.

Main statements: `Pipeline.standard_run_of_refused`, `Pipeline.standard_run_of_unresolved`,
`Pipeline.standard_run_eq`, `Document.processed_children_congr`.
-/

namespace ShellUnits

/-!
### Which stages were started
-/

/-- The stage that an event announces, if it announces one. -/
def Event.stage? : Event → Option Stage
  | .runningStage stage => some stage
  | _ => none

/-- The stages that were started, in order. -/
def Pass.stages {α β : Type} (pass : Pass α β) : List Stage :=
  pass.events.filterMap Event.stage?

theorem Options.normalize_events (options : Options) :
    options.normalize.events.filterMap Event.stage? = [] := by
  have folded : options.foldAlias.2.filterMap Event.stage? = [] := by
    unfold Options.foldAlias
    split
    · rfl
    · dsimp only
      split <;> rfl
  unfold Options.normalize
  dsimp only
  split
  · exact folded
  · rw [List.filterMap_append, folded, List.nil_append, List.filterMap_eq_nil_iff]
    intro event mem
    obtain ⟨key, -, rfl⟩ := List.mem_map.mp mem
    rfl

/-- No visit of the resolver announces a stage. -/
theorem resolver_events (raw : Group) (key : String) (node : Node) (location : List String)
    (events : List Event) (kept : events.filterMap Event.stage? = []) :
    (resolver raw key node location events).state.filterMap Event.stage? = [] := by
  unfold resolver
  split
  · split
    · exact kept
    · split
      · exact kept
      · simpa [List.filterMap_append, Event.stage?] using kept
  · exact kept

theorem Group.resolveReferences_events (group : Group) :
    group.resolveReferences.events.filterMap Event.stage? = [] :=
  Group.walk_state_of_visit (resolver_events group) group [] rfl

/-!
### A run, stage by stage
-/

namespace Pipeline

/-- A stage that fails ends the run. -/
theorem run_cons_of_error {document : Document} {stage : Stage} {failure : CompileError}
    (fails : (stage.run document).result = .error failure) (rest : Pipeline) :
    run document (stage :: rest) =
      ⟨(stage.run document).left, .runningStage stage :: (stage.run document).events, .error failure⟩ := by
  simp only [run, fails]

/-- A stage that does not fail hands on what it leaves. -/
theorem run_cons_of_ok {document : Document} {stage : Stage}
    (ok : (stage.run document).result = .ok ()) (rest : Pipeline) :
    run document (stage :: rest) =
      { run (stage.run document).left rest with
        events := .runningStage stage :: (stage.run document).events ++
          (run (stage.run document).left rest).events } := by
  simp only [run, ok]

/-- What a stage that does not fail leaves and reports is what the next stage starts from and what stands in front. -/
theorem run_cons_of_eq {document next : Document} {stage : Stage} {events : List Event}
    (eq : stage.run document = ⟨next, events, .ok ()⟩) (rest : Pipeline) :
    run document (stage :: rest) =
      ⟨(run next rest).left, (.runningStage stage :: events) ++ (run next rest).events, (run next rest).result⟩ := by
  simp only [run, eq]

end Pipeline

/-- The document that the standard stages leave if none of them fails. -/
def Document.processed (separator : Separator) (document : Document) : Document :=
  let directory := nonEmpty document.units.attributes.directory
  { options := document.options.normalize.left
    units :=
      ⟨{ document.units.attributes with workingDirectory := directory },
        document.units.expand.children.derive separator directory none⟩ }

section Standard

variable {document : Document}

/-- A refused separator ends the run in the first stage; the units are as they were. -/
theorem Pipeline.standard_run_of_refused {value : Value} (refused : document.options.Refuses value) :
    (standard.run document).left = { document with options := document.options.foldAlias.1 } ∧
      (standard.run document).result = .error (.invalidSeparator value) ∧
      (standard.run document).stages = [.normalizeOptions] := by
  have normalized := Options.normalize_of_refused refused
  have fails : (Stage.run document .normalizeOptions).result = .error (.invalidSeparator value) := by
    simp only [Stage.run, normalized]; rfl
  have events := Options.normalize_events document.options
  have run : standard.run document = _ := run_cons_of_error fails [.resolveReferences, .assignPaths, .assignNames]
  rw [run]
  refine ⟨?_, rfl, ?_⟩
  · simp only [Stage.run, normalized]
  · simpa [Pass.stages, Event.stage?, Stage.run] using events

/-- The first stage hands on the document with its options normalized. -/
theorem Stage.run_normalizeOptions {separator : Separator}
    (ok : document.options.normalize.result = .ok separator) :
    (Stage.run document .normalizeOptions).result = .ok () ∧
      (Stage.run document .normalizeOptions).left = { document with options := document.options.normalize.left } := by
  simp only [Stage.run, ok, and_true]; rfl

/-- A reference that cannot be replaced ends the run in the second stage, before anything is derived. -/
theorem Pipeline.standard_run_of_unresolved {separator : Separator} {failure : CompileError}
    (ok : document.options.normalize.result = .ok separator)
    (fails : document.units.firstFailure? = some failure) :
    (standard.run document).left = ⟨document.options.normalize.left, document.units.resolveReferences.left⟩ ∧
      (standard.run document).result = .error failure ∧
      (standard.run document).stages = [.normalizeOptions, .resolveReferences] := by
  obtain ⟨normalizes, normalized⟩ := Stage.run_normalizeOptions ok
  have stops : (Stage.run (Stage.run document .normalizeOptions).left .resolveReferences).result =
      .error failure := by
    rw [normalized]
    simp only [Stage.run, Group.resolveReferences_result, fails, endOf]
  have run : standard.run document = _ := run_cons_of_ok normalizes [.resolveReferences, .assignPaths, .assignNames]
  rw [run, run_cons_of_error stops, normalized]
  have first := Options.normalize_events document.options
  have second := Group.resolveReferences_events document.units
  refine ⟨rfl, rfl, ?_⟩
  simp [Pass.stages, Event.stage?, Stage.run, first, second]

/-- The second stage hands on the expanded tree if all references can be replaced. -/
theorem Stage.run_resolveReferences (resolves : document.units.firstFailure? = none) :
    Stage.run document .resolveReferences =
      ⟨{ document with units := document.units.expand }, document.units.resolveReferences.events, .ok ()⟩ := by
  simp only [Stage.run, Group.resolveReferences_result, resolves, endOf, Group.resolveReferences_left_of_ok resolves]

/-- A run that meets neither goes through all stages, and each of them reports what it does after it was announced. -/
theorem Pipeline.standard_run_eq {separator : Separator}
    (ok : document.options.normalize.result = .ok separator)
    (resolves : document.units.firstFailure? = none) :
    standard.run document =
      ⟨document.processed separator,
        (.runningStage .normalizeOptions :: document.options.normalize.events) ++
          ((.runningStage .resolveReferences :: document.units.resolveReferences.events) ++
            ((.runningStage .assignPaths :: document.units.expand.assignPaths.2) ++
              (.runningStage .assignNames :: (document.units.expand.assignPaths.1.assignNames separator).2))),
        .ok ()⟩ := by
  let folded : Document := ⟨document.options.normalize.left, document.units⟩
  have normalized : Stage.run document .normalizeOptions = ⟨folded, document.options.normalize.events, .ok ()⟩ := by
    simp only [Stage.run, ok]
    rfl
  let expanded : Document := ⟨document.options.normalize.left, document.units.expand⟩
  have resolved : Stage.run folded .resolveReferences =
      ⟨expanded, document.units.resolveReferences.events, .ok ()⟩ := by
    have resolvesToo : folded.units.firstFailure? = none := resolves
    exact Stage.run_resolveReferences resolvesToo
  let placed : Document := ⟨document.options.normalize.left, expanded.units.assignPaths.1⟩
  have assigned : Stage.run expanded .assignPaths = ⟨placed, document.units.expand.assignPaths.2, .ok ()⟩ := rfl
  have separates : placed.options.separator = .ok separator := Options.separator_normalize ok
  have named : Stage.run placed .assignNames =
      ⟨document.processed separator, (document.units.expand.assignPaths.1.assignNames separator).2, .ok ()⟩ := by
    simp only [Stage.run, separates, Group.assignNames_fst]
    simp only [placed, expanded, Group.assignPaths_fst, Group.expand, Document.processed,
      Children.named_inherit]
  rw [standard, Stage.all, run_cons_of_eq normalized, run_cons_of_eq resolved, run_cons_of_eq assigned,
    run_cons_of_eq named, run, List.append_nil]

/-- A run that meets neither goes through all stages. -/
theorem Pipeline.standard_run_of_resolved {separator : Separator}
    (ok : document.options.normalize.result = .ok separator)
    (resolves : document.units.firstFailure? = none) :
    (standard.run document).left = document.processed separator ∧
      (standard.run document).result = .ok () := by
  rw [standard_run_eq ok resolves]
  exact ⟨rfl, rfl⟩

/-- A run that ends well has met neither. -/
theorem Pipeline.processed_of_standard_run (succeeds : (standard.run document).result = .ok ()) :
    ∃ separator, document.options.normalize.result = .ok separator ∧
      document.units.firstFailure? = none ∧ (standard.run document).left = document.processed separator := by
  have accepted : ∀ value, ¬ document.options.Refuses value := by
    intro value refused
    simp [(standard_run_of_refused refused).2.1] at succeeds
  obtain ⟨separator, ok⟩ := Options.exists_normalize_result accepted
  cases first : document.units.firstFailure? with
  | some failure => simp [(standard_run_of_unresolved ok first).2.1] at succeeds
  | none => exact ⟨separator, ok, rfl, (standard_run_of_resolved ok first).1⟩

/-- Compiling a document that goes through lists the functions of what is left. -/
theorem compile_of_resolved {separator : Separator} (ok : document.options.normalize.result = .ok separator)
    (resolves : document.units.firstFailure? = none) :
    (compile document).left = document.processed separator ∧
      (compile document).result = .ok (document.processed separator).units.functions := by
  obtain ⟨left, result⟩ := Pipeline.standard_run_of_resolved ok resolves
  exact ⟨left, by simp only [compile, result, left]; rfl⟩

/-- Compiling gives functions exactly when no separator is refused and all references can be replaced. -/
theorem compile_eq_ok_iff {functions : List Function} :
    (compile document).result = .ok functions ↔
      ∃ separator, document.options.normalize.result = .ok separator ∧ document.units.firstFailure? = none ∧
        functions = (document.processed separator).units.functions := by
  constructor
  · intro compiles
    have succeeds : (Pipeline.standard.run document).result = .ok () := by
      simp only [compile] at compiles
      cases h : (Pipeline.standard.run document).result with
      | error failure => simp [h, Except.map] at compiles
      | ok done => rfl
    obtain ⟨separator, ok, resolves, -⟩ := Pipeline.processed_of_standard_run succeeds
    refine ⟨separator, ok, resolves, ?_⟩
    rw [(compile_of_resolved ok resolves).2, Except.ok.injEq] at compiles
    exact compiles.symm
  · rintro ⟨separator, ok, resolves, rfl⟩
    exact (compile_of_resolved ok resolves).2

end Standard

/-!
### Derived attributes that are there beforehand
-/

theorem Children.withoutDerived_eachBy :
    Children.EachBy Children.withoutDerived fun _ => Node.withoutDerived :=
  ⟨rfl, fun _ _ _ => rfl⟩

theorem Node.follow_withoutDerived :
    ∀ (path : List String) (node : Node),
      node.withoutDerived.follow path = (node.follow path).map Node.withoutDerived
  | [], _ => rfl
  | key :: rest, .group attributes children => by
      simp only [Node.withoutDerived, Node.follow, Children.withoutDerived_eachBy.get?]
      cases children.get? key with
      | none => rfl
      | some node => exact Node.follow_withoutDerived rest node
  | _ :: _, .command _ => rfl
  | _ :: _, .placeholder => rfl
  | _ :: _, .reference _ => rfl

/-- Following a path finds the same unit, without its derived attributes. -/
theorem Group.get?_withoutDerived (group : Group) (path : List String) :
    group.withoutDerived.get? path = (group.get? path).map Node.withoutDerived := by
  cases path with
  | nil => simp [Group.get?]
  | cons key rest =>
      rw [Group.get?_cons, Group.get?_cons, Group.withoutDerived, Children.withoutDerived_eachBy.get?]
      cases group.children.get? key with
      | none => rfl
      | some node => exact Node.follow_withoutDerived rest node

mutual

theorem Node.references_withoutDerived (location : List String) :
    ∀ node : Node, node.withoutDerived.references location = node.references location
  | .group _ children => by
      simp only [Node.withoutDerived, Node.references, Children.references_withoutDerived location children]
  | .command _ => rfl
  | .placeholder => rfl
  | .reference _ => rfl

theorem Children.references_withoutDerived (location : List String) :
    ∀ children : Children, children.withoutDerived.references location = children.references location
  | .nil => rfl
  | .cons key node rest => by
      simp only [Children.withoutDerived, Children.references, Node.references_withoutDerived _ node,
        Children.references_withoutDerived location rest]

end

/-- Whether all references can be replaced does not depend on derived attributes. -/
theorem Group.firstFailure?_withoutDerived {group : Group} :
    group.withoutDerived.firstFailure? = none ↔ group.firstFailure? = none := by
  have references : group.withoutDerived.references = group.references :=
    Children.references_withoutDerived [] group.children
  rw [Group.firstFailure?_eq_none_iff, Group.firstFailure?_eq_none_iff, references]
  simp only [Group.get?_withoutDerived, Option.map_eq_some_iff]
  constructor
  · intro resolves reference mem
    obtain ⟨_, target, found, -⟩ := resolves reference mem
    exact ⟨target, found⟩
  · intro resolves reference mem
    obtain ⟨target, found⟩ := resolves reference mem
    exact ⟨_, target, found, rfl⟩

mutual

theorem Node.expand_withoutDerived (raw : Group) :
    ∀ node : Node, node.withoutDerived.expand raw.withoutDerived = (node.expand raw).withoutDerived
  | .group attributes children => by
      simp only [Node.withoutDerived, Node.expand, Children.expand_withoutDerived raw children]
  | .command _ => rfl
  | .placeholder => rfl
  | .reference ids => by
      simp only [Node.withoutDerived, Node.expand, Group.get?_withoutDerived]
      cases raw.get? ids <;> rfl

/-- Expanding copies derived attributes with the units that hold them, and does nothing else to them. -/
theorem Children.expand_withoutDerived (raw : Group) :
    ∀ children : Children,
      children.withoutDerived.expand raw.withoutDerived = (children.expand raw).withoutDerived
  | .nil => rfl
  | .cons key node rest => by
      simp only [Children.withoutDerived, Children.expand, Node.expand_withoutDerived raw node,
        Children.expand_withoutDerived raw rest]

end

/-- Documents that differ in derived attributes only are processed to the same children. -/
theorem Document.processed_children_congr (separator : Separator) {document other : Document}
    (alike : other.units.withoutDerived = document.units.withoutDerived) :
    (other.processed separator).units.children = (document.processed separator).units.children := by
  have plain : ∀ group : Group,
      group.expand.children.derive separator (nonEmpty group.attributes.directory) none =
        group.withoutDerived.expand.children.derive separator
          (nonEmpty group.withoutDerived.attributes.directory) none := by
    intro group
    simp only [Group.expand, Group.withoutDerived, Attributes.withoutDerived]
    rw [← Children.derive_withoutDerived]
    exact congrArg _ (Children.expand_withoutDerived group group.children).symm
  simp only [Document.processed]
  rw [plain other.units, plain document.units, alike]

end ShellUnits
