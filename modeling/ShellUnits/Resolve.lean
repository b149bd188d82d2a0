import ShellUnits.Lookup
import ShellUnits.Walk

/-!
Replacing references by copies of their targets.

Targets are looked up in the tree as it was before the first replacement, and copies are not looked through
again. A reference whose target is or holds a reference therefore keeps that inner reference.

Main definition: `Group.resolveReferences`.
-/

namespace ShellUnits

/-- Replaces a reference by its target in `snapshot`. The scope is the location of the visited row; the
    state is what has been reported. -/
def resolver (snapshot : Group) : Visitor (List Event) (List String) CompileError :=
  fun key node location events =>
    match node with
    | .reference ids =>
      if ids = [] then ⟨events, node, .error (.emptyReferencePath (location ++ [key]))⟩
      else match snapshot.lookup ids with
        | .error failure => ⟨events, node, .error failure⟩
        | .ok target => ⟨events ++ [.resolved key ids], target, .ok none⟩
    | _ => ⟨events, node, .ok (some (location ++ [key]))⟩

/-- Only units that stay as they are get entered. -/
theorem resolver_keepsDepth (snapshot : Group) : (resolver snapshot).KeepsDepth := by
  intro key node location events inner attributes children enters replaced
  cases node with
  | group shown below =>
    simp only [resolver, Node.group.injEq] at replaced
    simp [Node.depth, replaced.2]
  | command text => simp [resolver] at replaced
  | placeholder => simp [resolver] at replaced
  | reference ids =>
    simp only [resolver] at enters
    split at enters
    · simp at enters
    · split at enters <;> simp at enters

/-- Replaces every reference by a copy of its target. After a failure the references before the failing one
    have been replaced. -/
def Group.resolveReferences (units : Group) : Pass Group Unit :=
  let walked := units.walk (resolver units) [] []
  ⟨{ units with children := walked.children }, walked.state, walked.result⟩

end ShellUnits
