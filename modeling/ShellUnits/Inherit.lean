import ShellUnits.Directory
import ShellUnits.Event
import ShellUnits.Walk

/-!
Working directories and the end of units that are not groups.

Every group gets an effective working directory: its own override joined onto the inherited directory, or
the inherited directory, or none at all. An empty override or directory counts as none. Commands,
placeholders and references that were left over become groups without children.

Main definition: `Group.assignPaths`.
-/

namespace ShellUnits

/-- A text that is there and not empty. -/
def nonEmpty (text : Option String) : Option String :=
  text.filter fun text => text != ""

@[simp] theorem nonEmpty_none : nonEmpty none = none := rfl

@[simp] theorem nonEmpty_some_empty : nonEmpty (some "") = none := rfl

theorem nonEmpty_some_of_ne {text : String} (ne : text ≠ "") : nonEmpty (some text) = some text := by
  simp [nonEmpty, Option.filter, ne]

/-- The effective directory of a group with this override below this inherited directory. -/
def effectiveDirectory (inherited override : Option String) : Option String :=
  match nonEmpty override with
  | some directory => some (scopedPath (nonEmpty inherited) directory)
  | none => nonEmpty inherited

/-- Gives groups their effective directory and makes groups of all other units. The scope is the inherited
    directory; the state is what has been reported. -/
def pathAssigner : Visitor (List Event) (Option String) Empty :=
  fun key node inherited events =>
    let leaf (command : Option String) : Node :=
      .group { workingDirectory := nonEmpty inherited, command } .nil
    match node with
    | .group attributes children =>
      let directory := effectiveDirectory inherited attributes.directory
      ⟨events, .group { attributes with workingDirectory := directory } children, .ok (some directory)⟩
    | .command text => ⟨events, leaf (some text), .ok none⟩
    | .placeholder => ⟨events, leaf none, .ok none⟩
    | .reference ids =>
      ⟨events ++ [.literalReference key ids], leaf (some (formatReference ids)), .ok none⟩

/-- A group that gets entered keeps its children. -/
theorem pathAssigner_keepsDepth : pathAssigner.KeepsDepth := by
  intro key node inherited events inner attributes children enters replaced
  cases node with
  | group shown below =>
    simp only [pathAssigner, Node.group.injEq] at replaced
    simp [Node.depth, replaced.2]
  | command text => simp [pathAssigner] at enters
  | placeholder => simp [pathAssigner] at enters
  | reference ids => simp [pathAssigner] at enters

/-- Assigns effective working directories below `units`, and the root's own. -/
def Group.assignPaths (units : Group) : Group × List Event :=
  let directory := nonEmpty units.attributes.directory
  let walked := units.walk pathAssigner directory []
  (⟨{ units.attributes with workingDirectory := directory }, walked.children⟩, walked.state)

end ShellUnits
