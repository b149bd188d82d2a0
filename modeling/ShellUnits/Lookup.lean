import ShellUnits.CompileError

/-!
Following the ids of a reference, with an account of the step that fails.
-/

namespace ShellUnits

/-- Follows ids from a unit that the ids `searched` led to; `ids` are all ids of the reference. -/
def lookupFrom (ids : List String) (context : Node) (searched : List String) :
    List String → Except CompileError Node
  | [] => .ok context
  | id :: rest =>
    let found? := match context with
      | .group _ children => children.get? id
      | _ => none
    match found? with
    | some node => lookupFrom ids node (searched ++ [id]) rest
    | none => .error (.unresolvedReference ids searched id context)

/-- The unit that the ids lead to from the root. -/
def Group.lookup (root : Group) (ids : List String) : Except CompileError Node :=
  if ids = [] then .error (.emptyReferencePath []) else lookupFrom ids root.toNode [] ids

end ShellUnits
