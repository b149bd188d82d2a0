import ShellUnits.Function.Preorder

/-!
The cursor yields what the recursion lists.

What a cursor has still to yield can be read off its rows: the functions of the innermost row, then those of
the rows around it. A step takes the function that it yields off the front of that list and nothing else.

Main definitions: `Node.function?`, `Cursor.remaining`.
Main statement: `Cursor.take_eq_take_remaining`.
-/

namespace ShellUnits

/-- The function of a unit, which has one if it is a group with a name. -/
def Node.function? : Node → Option Function
  | .group attributes _ => Function.ofAttributes? attributes
  | .command _ => none
  | .placeholder => none
  | .reference _ => none

namespace Cursor

/-- What is still to be yielded. -/
def remaining (cursor : Cursor) : List Function :=
  cursor.rows.flatMap Children.functions

/-- A new cursor has all functions of the tree in front of it. -/
theorem remaining_ofGroup (group : Group) : (ofGroup group).remaining = group.functions := by
  simp [ofGroup, remaining, Group.functions]

/-- No step is left only when nothing is to be yielded. -/
theorem remaining_of_step?_none {cursor : Cursor} (done : cursor.step? = none) : cursor.remaining = [] := by
  obtain ⟨rows⟩ := cursor
  cases rows with
  | nil => rfl
  | cons row rows =>
      cases row with
      | nil => simp [step?] at done
      | cons key node rest => cases node <;> simp [step?] at done

/-- A step moves past the function that it yields, if it yields one. -/
theorem remaining_of_step? {cursor next : Cursor} {function : Option Function}
    (stepped : cursor.step? = some (function, next)) :
    cursor.remaining = function.toList ++ next.remaining := by
  obtain ⟨rows⟩ := cursor
  cases rows with
  | nil => simp [step?] at stepped
  | cons row rows =>
      cases row with
      | nil =>
          simp only [step?, Option.some.injEq, Prod.mk.injEq] at stepped
          obtain ⟨rfl, rfl⟩ := stepped
          simp [remaining, Children.functions]
      | cons key node rest =>
          cases node with
          | group attributes children =>
              simp only [step?, Option.some.injEq, Prod.mk.injEq] at stepped
              obtain ⟨rfl, rfl⟩ := stepped
              simp [remaining, Children.functions, Node.functions]
          | command text =>
              simp only [step?, Option.some.injEq, Prod.mk.injEq] at stepped
              obtain ⟨rfl, rfl⟩ := stepped
              simp [remaining, Children.functions, Node.functions]
          | placeholder =>
              simp only [step?, Option.some.injEq, Prod.mk.injEq] at stepped
              obtain ⟨rfl, rfl⟩ := stepped
              simp [remaining, Children.functions, Node.functions]
          | reference ids =>
              simp only [step?, Option.some.injEq, Prod.mk.injEq] at stepped
              obtain ⟨rfl, rfl⟩ := stepped
              simp [remaining, Children.functions, Node.functions]

/-- However many rows a call leaves and units it passes, it yields the front of what remains. -/
theorem remaining_eq_next? (cursor : Cursor) :
    cursor.remaining =
      match cursor.next? with
      | none => []
      | some (function, next) => function :: next.remaining := by
  fun_induction next? cursor with
  | case1 cursor done => exact remaining_of_step?_none done
  | case2 cursor function next stepped => exact remaining_of_step? stepped
  | case3 cursor next stepped ih => rw [remaining_of_step? stepped, ← ih]; rfl

/-- Calls of `next?` give the list from its front. -/
theorem take_eq_take_remaining (count : Nat) (cursor : Cursor) :
    cursor.take count = cursor.remaining.take count := by
  induction count generalizing cursor with
  | zero => rfl
  | succ count ih =>
      have call := remaining_eq_next? cursor
      cases yielded : cursor.next? with
      | none => simp [take, yielded, call]
      | some result =>
          obtain ⟨function, next⟩ := result
          simp [take, yielded, call, ih next]

end Cursor

end ShellUnits
