import ShellUnits.Function.Basic

/-!
The functions of a tree of units, in pre-order.

`Group.functions` lists the functions of all named groups below the root at once. `Cursor` yields them one
at a time: it holds the rows of siblings that are still to be gone through, the innermost first.

Main definitions: `Group.functions`, `Cursor`, `Cursor.next?`, `Cursor.take`.
-/

namespace ShellUnits

mutual

/-- The functions of a unit and of what lies below it. -/
def Node.functions : Node → List Function
  | .group attributes children => (Function.ofAttributes? attributes).toList ++ children.functions
  | .command _ => []
  | .placeholder => []
  | .reference _ => []

/-- The functions of a row of siblings and of what lies below them. -/
def Children.functions : Children → List Function
  | .nil => []
  | .cons _ node rest => node.functions ++ rest.functions

end

/-- The functions of all named groups below a group. -/
def Group.functions (group : Group) : List Function :=
  group.children.functions

mutual

/-- How many steps a cursor takes to go through a unit. -/
def Node.steps : Node → Nat
  | .group _ children => children.steps + 1
  | .command _ => 1
  | .placeholder => 1
  | .reference _ => 1

/-- How many steps a cursor takes to go through a row of siblings and to leave it. -/
def Children.steps : Children → Nat
  | .nil => 1
  | .cons _ node rest => node.steps + rest.steps

end

/-- The rows of siblings that are still to be gone through, the innermost first. -/
structure Cursor where
  rows : List Children
deriving DecidableEq, Repr

namespace Cursor

/-- A cursor in front of the first child of a group. -/
def ofGroup (group : Group) : Cursor := ⟨[group.children]⟩

/-- How many steps are left. -/
def steps (cursor : Cursor) : Nat :=
  (cursor.rows.map Children.steps).foldr (· + ·) 0

/-- One step: leaves a finished row, or goes past the next unit. A group's children become the innermost
    row, and its function is yielded if it has one. -/
def step? : Cursor → Option (Option Function × Cursor)
  | ⟨[]⟩ => none
  | ⟨.nil :: rows⟩ => some (none, ⟨rows⟩)
  | ⟨.cons _ (.group attributes children) rest :: rows⟩ =>
    some (Function.ofAttributes? attributes, ⟨children :: rest :: rows⟩)
  | ⟨.cons _ _ rest :: rows⟩ => some (none, ⟨rest :: rows⟩)

theorem steps_step? {cursor next : Cursor} {function : Option Function}
    (h : cursor.step? = some (function, next)) : next.steps < cursor.steps := by
  unfold step? at h
  split at h
  · simp at h
  · simp only [Option.some.injEq, Prod.mk.injEq] at h
    obtain ⟨-, rfl⟩ := h
    simp [steps, Children.steps]
  · simp only [Option.some.injEq, Prod.mk.injEq] at h
    obtain ⟨-, rfl⟩ := h
    simp [steps, Children.steps, Node.steps]
    omega
  · rename_i node rest rows _
    simp only [Option.some.injEq, Prod.mk.injEq] at h
    obtain ⟨-, rfl⟩ := h
    have : 0 < node.steps := by cases node <;> simp [Node.steps]
    simp [steps, Children.steps]
    omega

/-- The next function and the cursor behind it; `none` when the tree has been gone through. -/
def next? (cursor : Cursor) : Option (Function × Cursor) :=
  match _h : cursor.step? with
  | none => none
  | some (some function, next) => some (function, next)
  | some (none, next) => next.next?
termination_by cursor.steps
decreasing_by exact steps_step? _h

/-- The first `count` functions that a cursor yields. -/
def take : Nat → Cursor → List Function
  | 0, _ => []
  | count + 1, cursor =>
    match cursor.next? with
    | none => []
    | some (function, next) => function :: take count next

end Cursor

end ShellUnits
