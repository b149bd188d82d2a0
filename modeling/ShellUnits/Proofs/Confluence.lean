import ShellUnits.Proofs.Derivation

/-!
Directories and names assigned in any order.

The two passes can run over a tree again and again and in between one another, with another separator each time.
Each writes attributes that neither reads, so what earlier runs have written leaves no trace. All that has to come
in order is one thing: naming skips units that are not groups yet, so they have to be made groups before the
names are given that stay.

Two facts about a single step are carried along a sequence. No step changes what the tree would be derived to, and
once directories have been assigned, no step makes it necessary to assign them again.

Main statement: `Assignment.runAll_eq_of_last_names`.
-/

namespace ShellUnits

/-!
### Sequences of passes
-/

/-- A pass that assigns derived attributes. -/
inductive Assignment where
  | paths
  | names (separator : Separator)
deriving DecidableEq, Repr

namespace Assignment

/-- The tree after one pass. -/
def run (units : Group) : Assignment → Group
  | paths => units.assignPaths.1
  | names separator => (units.assignNames separator).1

/-- The tree after passes that run one after the other. -/
def runAll (units : Group) (passes : List Assignment) : Group :=
  passes.foldl run units

end Assignment

/-- The tree with directories assigned once and then names once. -/
def Group.assignBoth (units : Group) (separator : Separator) : Group :=
  (units.assignPaths.1.assignNames separator).1

/-- Assigning directories changes nothing. -/
def Group.Settled (units : Group) : Prop :=
  units.assignPaths.1 = units

theorem Group.assignBoth_eq (units : Group) (separator : Separator) :
    units.assignBoth separator =
      ⟨{ units.attributes with workingDirectory := nonEmpty units.attributes.directory },
        units.children.derive separator (nonEmpty units.attributes.directory) none⟩ := by
  rw [Group.assignBoth, Group.assignPaths_fst, Group.assignNames_fst, Children.named_inherit]

/-- Where directories are in place, the names are all that is missing. -/
theorem Group.Settled.assignNames {units : Group} (settled : units.Settled) (separator : Separator) :
    (units.assignNames separator).1 = units.assignBoth separator := by
  rw [Group.assignBoth, settled]

namespace Assignment

theorem runAll_cons (units : Group) (pass : Assignment) (rest : List Assignment) :
    runAll units (pass :: rest) = runAll (run units pass) rest := rfl

theorem runAll_append (units : Group) (passes others : List Assignment) :
    runAll units (passes ++ others) = runAll (runAll units passes) others :=
  List.foldl_append

variable {units : Group}

theorem settled_paths (units : Group) : (run units .paths).Settled := by
  rw [run, Group.Settled, Group.assignPaths_fst, Group.assignPaths_fst, Children.inherit_inherit]

/-- No pass makes it necessary to assign directories again. -/
theorem settled_run (settled : units.Settled) (pass : Assignment) : (run units pass).Settled := by
  cases pass with
  | paths => exact settled_paths units
  | names separator =>
      rw [Group.Settled, Group.assignPaths_fst] at settled
      have root : nonEmpty units.attributes.directory = units.attributes.workingDirectory :=
        congrArg (fun group : Group => group.attributes.workingDirectory) settled
      have below : units.children.inherit (nonEmpty units.attributes.directory) = units.children :=
        congrArg Group.children settled
      rw [run, Group.Settled, Group.assignPaths_fst, Group.assignNames_fst,
        Children.inherit_named separator none below, root]

/-- No pass changes what the tree is derived to. -/
theorem assignBoth_run (units : Group) (pass : Assignment) (separator : Separator) :
    (run units pass).assignBoth separator = units.assignBoth separator := by
  cases pass with
  | paths =>
      have settled : (run units .paths).Settled := settled_paths units
      exact (settled.assignNames separator).symm
  | names other =>
      rw [run, Group.assignBoth_eq, Group.assignBoth_eq, Group.assignNames_fst,
        ← Children.derive_withoutDerived separator _ none (units.children.named other none),
        Children.withoutDerived_named, Children.derive_withoutDerived]

theorem settled_runAll {passes : List Assignment} (settled : units.Settled) : (runAll units passes).Settled := by
  induction passes generalizing units with
  | nil => exact settled
  | cons pass rest ih => exact ih (settled_run settled pass)

/-- Directories are in place once they have been assigned. -/
theorem settled_runAll_of_mem {passes : List Assignment} (mem : .paths ∈ passes) :
    (runAll units passes).Settled := by
  induction passes generalizing units with
  | nil => simp at mem
  | cons pass rest ih =>
      rw [runAll_cons]
      rcases List.mem_cons.mp mem with rfl | later
      · exact settled_runAll (settled_paths units)
      · exact ih later

theorem assignBoth_runAll (units : Group) (passes : List Assignment) (separator : Separator) :
    (runAll units passes).assignBoth separator = units.assignBoth separator := by
  induction passes generalizing units with
  | nil => rfl
  | cons pass rest ih =>
      calc (runAll (run units pass) rest).assignBoth separator
        _ = (run units pass).assignBoth separator := ih (run units pass)
        _ = units.assignBoth separator := assignBoth_run units pass separator

/-- Where directories are in place, assigning them any number of times changes nothing. -/
theorem runAll_of_paths {passes : List Assignment} (settled : units.Settled)
    (onlyPaths : ∀ separator, .names separator ∉ passes) : runAll units passes = units := by
  induction passes with
  | nil => rfl
  | cons pass rest ih =>
      cases pass with
      | paths =>
          have later : runAll units rest = units := by
            apply ih
            intro separator mem
            exact onlyPaths separator (List.mem_cons_of_mem _ mem)
          rw [runAll_cons, run, settled]
          exact later
      | names separator => exact absurd List.mem_cons_self (onlyPaths separator)

/-- In whatever order and however often directories and names are assigned, with whatever separators: if directories
have been assigned at some time before the last time that names are, the tree is the one that assigning each of them
once gives, with the last separator. -/
theorem runAll_eq_of_last_names (units : Group) {before after : List Assignment} {separator : Separator}
    (placed : .paths ∈ before) (last : ∀ other, .names other ∉ after) :
    runAll units (before ++ .names separator :: after) = (units.assignPaths.1.assignNames separator).1 := by
  have settled : (runAll units before).Settled := settled_runAll_of_mem placed
  have named : run (runAll units before) (.names separator) = units.assignBoth separator := by
    rw [run, settled.assignNames separator]
    exact assignBoth_runAll units before separator
  have stays : (units.assignBoth separator).Settled := named ▸ settled_run settled (.names separator)
  calc runAll units (before ++ .names separator :: after)
    _ = runAll (run (runAll units before) (.names separator)) after := by rw [runAll_append, runAll_cons]
    _ = runAll (units.assignBoth separator) after := by rw [named]
    _ = units.assignBoth separator := runAll_of_paths stays last

end Assignment

/-- All kinds of units, with overrides two deep and with outdated names and directories. -/
def Group.outdated : Group where
  attributes := { directory := some "/srv", qualifiedName := some "root" }
  children :=
    .cons "app" (.group { directory := some "app", workingDirectory := some "old", qualifiedName := some "gone" }
      (.cons "run" (.command "make") (.cons "none" .placeholder .nil))) <|
    .cons "use" (.reference ["app", "run"]) .nil

/-- Naming before there are only groups, with another separator each time, makes no difference in the end. -/
theorem Assignment.runAll_eq_of_last_names_outdated :
    runAll .outdated [.names .dash, .paths, .names .colon, .paths, .names .dot, .paths, .paths] =
        (Group.outdated.assignPaths.1.assignNames .dot).1 ∧
      runAll .outdated [.names .dot, .paths] ≠ (Group.outdated.assignPaths.1.assignNames .dot).1 := by
  have placed : Assignment.paths ∈ [.names .dash, .paths, .names .colon, .paths] := by decide
  have last : ∀ other, Assignment.names other ∉ [.paths, .paths] := by simp
  exact ⟨runAll_eq_of_last_names .outdated placed last, by decide⟩

end ShellUnits
