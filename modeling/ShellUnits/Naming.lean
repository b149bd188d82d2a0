import ShellUnits.Event
import ShellUnits.Separator
import ShellUnits.Walk

/-!
Qualified names.

A group is named by the keys on the way to it, joined by the separator; leading empty keys leave no trace.
The root stays unnamed, and units that are not groups get no name.

Main definition: `Group.assignNames`.
-/

namespace ShellUnits

/-- The name of a unit under this key in a group with this name. -/
def qualify (separator : Separator) (parent : Option String) (key : String) : String :=
  match parent with
  | some parent => if parent = "" then key else parent ++ separator.text ++ key
  | none => key

/-- Names groups. The scope is the name of the group that holds the visited row; the state is what has been
    reported. -/
def nameAssigner (separator : Separator) : Visitor (List Event) (Option String) Empty :=
  fun key node parent events =>
    match node with
    | .group attributes children =>
      let name := qualify separator parent key
      ⟨events ++ [.named name], .group { attributes with qualifiedName := some name } children,
        .ok (some (some name))⟩
    | _ => ⟨events ++ [.notGroup key], node, .ok none⟩

/-- A group that gets entered keeps its children. -/
theorem nameAssigner_keepsDepth (separator : Separator) : (nameAssigner separator).KeepsDepth := by
  intro key node parent events inner attributes children enters replaced
  cases node with
  | group shown below =>
    simp only [nameAssigner, Node.group.injEq] at replaced
    simp [Node.depth, replaced.2]
  | command text => simp [nameAssigner] at enters
  | placeholder => simp [nameAssigner] at enters
  | reference ids => simp [nameAssigner] at enters

/-- Assigns qualified names to all groups below `units`. -/
def Group.assignNames (units : Group) (separator : Separator) : Group × List Event :=
  let walked := units.walk (nameAssigner separator) none []
  ({ units with children := walked.children }, walked.state)

end ShellUnits
