import Mathlib.Data.List.Lex
import ShellUnits.Proofs.Preorder

/-!
What call after call of a cursor yields.

A unit has a position: the places in their rows of the units on the way to it. Read from the front, positions
have the order of the document, in which a group stands in front of all that is below it. A call of a cursor
can leave many rows and pass many units before it yields something, and at the end it leaves a cursor behind
that has nothing left. So the calls yield the functions of the groups with a name, position by position, and
after the last one nothing more.

Main definitions: `Node.at?`, `Group.positions`, `Cursor.call`, `Cursor.after`.
Main statements: `Node.mem_positions_iff`, `Children.pairwise_positions`,
`Children.functions_eq_filterMap_positions`, `Cursor.call_after`, `Cursor.calls_yield_functions`.
-/

namespace ShellUnits

/-!
### Positions
-/

/-- Follows places in rows of siblings, counted from zero; no places lead to the unit itself. -/
def Node.at? : List Nat → Node → Option Node
  | [], node => some node
  | place :: rest, .group _ children => children.toList[place]?.bind fun entry => entry.2.at? rest
  | _ :: _, _ => none

/-- The unit at a position; the root itself is none of the units. -/
def Group.at? (group : Group) : List Nat → Option Node
  | [] => none
  | place :: rest => group.toNode.at? (place :: rest)

mutual

/-- The positions in a unit, its own first and then those below it. -/
def Node.positions : Node → List (List Nat)
  | .group _ children => [] :: children.positions 0
  | .command _ => [[]]
  | .placeholder => [[]]
  | .reference _ => [[]]

/-- The positions in a row whose first unit has this place. -/
def Children.positions (place : Nat) : Children → List (List Nat)
  | .nil => []
  | .cons _ node rest => node.positions.map (place :: ·) ++ rest.positions (place + 1)

end

/-- The positions below the root. -/
def Group.positions (group : Group) : List (List Nat) :=
  group.children.positions 0

/-- In a row the positions of a unit begin with the place of the unit. -/
theorem Children.mem_positions_iff {position : List Nat} :
    ∀ {children : Children} {first : Nat},
      position ∈ children.positions first ↔
        ∃ place entry rest, position = (first + place) :: rest ∧ children.toList[place]? = some entry ∧
          rest ∈ entry.2.positions
  | .nil, first => by simp [positions, toList]
  | .cons key node others, first => by
      simp only [positions, List.mem_append, List.mem_map, @mem_positions_iff position others (first + 1), toList]
      constructor
      · rintro (⟨rest, mem, rfl⟩ | ⟨place, entry, rest, rfl, there, mem⟩)
        · exact ⟨0, (key, node), rest, rfl, rfl, mem⟩
        · exact ⟨place + 1, entry, rest, by rw [Nat.add_right_comm, Nat.add_assoc], there, mem⟩
      · rintro ⟨place, entry, rest, rfl, there, mem⟩
        cases place with
        | zero =>
            obtain rfl := Option.some.inj there
            exact .inl ⟨rest, mem, rfl⟩
        | succ place =>
            exact .inr ⟨place, entry, rest, by rw [Nat.add_right_comm, Nat.add_assoc], there, mem⟩

theorem Children.cons_mem_positions_iff {children : Children} {place : Nat} {rest : List Nat} :
    place :: rest ∈ children.positions 0 ↔
      ∃ entry, children.toList[place]? = some entry ∧ rest ∈ entry.2.positions := by
  rw [mem_positions_iff]
  constructor
  · rintro ⟨other, entry, more, same, there, mem⟩
    rw [Nat.zero_add] at same
    rcases List.cons.inj same with ⟨rfl, rfl⟩
    exact ⟨entry, there, mem⟩
  · rintro ⟨entry, there, mem⟩
    exact ⟨place, entry, rest, by rw [Nat.zero_add], there, mem⟩

/-- Exactly the positions that lead to a unit are listed. -/
theorem Node.mem_positions_iff {position : List Nat} {node : Node} :
    position ∈ node.positions ↔ (node.at? position).isSome := by
  induction position generalizing node with
  | nil => cases node <;> simp [Node.positions, Node.at?]
  | cons place rest ih =>
      cases node with
      | group attributes children =>
          have below : place :: rest ∈ (Node.group attributes children).positions ↔
              place :: rest ∈ children.positions 0 := by
            simp [Node.positions]
          rw [below, Children.cons_mem_positions_iff, Node.at?]
          cases children.toList[place]? with
          | none => simp
          | some entry => simp [ih]
      | command text => simp [Node.positions, Node.at?]
      | placeholder => simp [Node.positions, Node.at?]
      | reference ids => simp [Node.positions, Node.at?]

mutual

theorem Node.pairwise_positions : ∀ node : Node, node.positions.Pairwise (· < ·)
  | .group _ children => by
      rw [Node.positions, List.pairwise_cons]
      refine ⟨?_, Children.pairwise_positions 0 children⟩
      intro position mem
      obtain ⟨place, _, rest, rfl, -⟩ := Children.mem_positions_iff.mp mem
      exact List.nil_lt_cons _ _
  | .command _ => List.pairwise_singleton _ _
  | .placeholder => List.pairwise_singleton _ _
  | .reference _ => List.pairwise_singleton _ _

/-- Positions are listed in the order of the document, so none is listed twice. -/
theorem Children.pairwise_positions (first : Nat) :
    ∀ children : Children, (children.positions first).Pairwise (· < ·)
  | .nil => List.Pairwise.nil
  | .cons key node others => by
      rw [Children.positions, List.pairwise_append]
      refine ⟨?_, Children.pairwise_positions (first + 1) others, ?_⟩
      · rw [List.pairwise_map]
        refine (Node.pairwise_positions node).imp ?_
        intro position later before
        exact List.cons_lt_cons_iff.mpr (.inr ⟨rfl, before⟩)
      · intro position inNode later inOthers
        obtain ⟨rest, -, rfl⟩ := List.mem_map.mp inNode
        obtain ⟨place, _, more, rfl, -⟩ := Children.mem_positions_iff.mp inOthers
        apply List.cons_lt_cons_iff.mpr
        left
        omega

end

/-- A group stands in front of what is below it, and that in front of the next unit in the row of the group. -/
example : ([0] : List Nat) < [0, 3] ∧ ([0, 3] : List Nat) < [1] := by decide

/-!
### The functions position by position
-/

mutual

theorem Node.functions_eq_filterMap_positions :
    ∀ node : Node, node.functions = node.positions.filterMap fun position => (node.at? position).bind Node.function?
  | .group attributes children => by
      have below := Children.functions_eq_filterMap_positions children 0
        (fun position => ((Node.group attributes children).at? position).bind Node.function?) (by
          intro place rest
          rw [Nat.zero_add, Node.at?, Option.bind_assoc])
      rw [Node.functions, Node.positions, List.filterMap_cons, below]
      simp only [Node.at?, Option.bind_some, Node.function?]
      cases Function.ofAttributes? attributes <;> rfl
  | .command _ => rfl
  | .placeholder => rfl
  | .reference _ => rfl

/-- The functions of a row are those at the positions in it, read off in any way that agrees with it. -/
theorem Children.functions_eq_filterMap_positions :
    ∀ (children : Children) (first : Nat) (function? : List Nat → Option Function),
      (∀ place rest, function? ((first + place) :: rest) =
        children.toList[place]?.bind fun entry => (entry.2.at? rest).bind Node.function?) →
      children.functions = (children.positions first).filterMap function?
  | .nil, _, _, _ => rfl
  | .cons key node others, first, function?, given => by
      have own : function? ∘ (first :: ·) = fun rest => (node.at? rest).bind Node.function? :=
        funext fun rest => given 0 rest
      have later : ∀ place rest, function? ((first + 1 + place) :: rest) =
          others.toList[place]?.bind fun entry => (entry.2.at? rest).bind Node.function? := by
        intro place rest
        rw [Nat.add_right_comm, Nat.add_assoc]
        exact given (place + 1) rest
      rw [Children.functions, Children.positions, List.filterMap_append, List.filterMap_map, own,
        ← Node.functions_eq_filterMap_positions node,
        ← Children.functions_eq_filterMap_positions others (first + 1) function? later]

end

namespace Group

variable {group : Group}

/-- Exactly the positions that lead to a unit below the root are listed. -/
theorem mem_positions_iff {position : List Nat} : position ∈ group.positions ↔ (group.at? position).isSome := by
  cases position with
  | nil =>
      rw [positions, Children.mem_positions_iff]
      simp [at?]
  | cons place rest =>
      have below : place :: rest ∈ group.positions ↔ place :: rest ∈ group.toNode.positions := by
        simp [positions, toNode, Node.positions]
      rw [below, Node.mem_positions_iff, at?]

/-- The function at a position, if a group with a name stands there. -/
def functionAt? (group : Group) (position : List Nat) : Option Function :=
  (group.at? position).bind Node.function?

theorem functionAt?_isSome_iff {position : List Nat} :
    (group.functionAt? position).isSome ↔
      ∃ attributes children, group.at? position = some (.group attributes children) ∧
        attributes.qualifiedName ≠ none := by
  unfold functionAt?
  cases group.at? position with
  | none => simp
  | some node =>
      cases node with
      | group attributes children => simp [Node.function?, Function.ofAttributes?, Option.isSome_iff_ne_none]
      | command text => simp [Node.function?]
      | placeholder => simp [Node.function?]
      | reference ids => simp [Node.function?]

/-- The positions of the groups with a name. -/
def namedPositions (group : Group) : List (List Nat) :=
  group.positions.filter fun position => (group.functionAt? position).isSome

theorem pairwise_namedPositions : group.namedPositions.Pairwise (· < ·) :=
  (Children.pairwise_positions 0 group.children).filter _

theorem mem_namedPositions_iff {position : List Nat} :
    position ∈ group.namedPositions ↔
      ∃ attributes children, group.at? position = some (.group attributes children) ∧
        attributes.qualifiedName ≠ none := by
  rw [namedPositions, List.mem_filter, mem_positions_iff, functionAt?_isSome_iff]
  constructor
  · exact And.right
  · intro named
    rcases named with ⟨attributes, children, there, name⟩
    exact ⟨by rw [there]; rfl, attributes, children, there, name⟩

/-- There is one function for each group with a name, in the order of the document. -/
theorem map_functionAt?_namedPositions : group.namedPositions.map group.functionAt? = group.functions.map some := by
  have functions : group.functions = group.positions.filterMap group.functionAt? :=
    Children.functions_eq_filterMap_positions group.children 0 group.functionAt? (by
      intro place rest
      rw [Nat.zero_add, functionAt?, at?, toNode, Node.at?, Option.bind_assoc])
  rw [functions, List.map_filterMap_some_eq_filter_map_isSome, List.filter_map]
  rfl

end Group

/-!
### Calls
-/

namespace Cursor

/-- One call: what it yields, if anything is left, and the cursor that it leaves behind. -/
def call (cursor : Cursor) : Option Function × Cursor :=
  match _h : cursor.step? with
  | none => (none, cursor)
  | some (some function, next) => (some function, next)
  | some (none, next) => next.call
termination_by cursor.steps
decreasing_by exact steps_step? _h

/-- A call that yields something is a step to the next function, and any other call ends the tree. -/
theorem next?_eq_call (cursor : Cursor) :
    cursor.next? = cursor.call.1.map fun function => (function, cursor.call.2) := by
  have step : ∀ cursor : Cursor, cursor.next? =
      match cursor.step? with
      | none => none
      | some (some function, next) => some (function, next)
      | some (none, next) => next.next? := by
    intro cursor
    rw [next?]
    split <;> rename_i stepped <;> rw [stepped]
  fun_induction call cursor with
  | case1 cursor done => rw [step, done]; rfl
  | case2 cursor function next stepped => rw [step, stepped]; rfl
  | case3 cursor next stepped ih => rw [step, stepped]; exact ih

/-- A call takes the function that it yields off the front of what remains. -/
theorem call_eq (cursor : Cursor) :
    cursor.call.1 = cursor.remaining.head? ∧ cursor.call.2.remaining = cursor.remaining.tail := by
  fun_induction call cursor with
  | case1 cursor done => simp [remaining_of_step?_none done]
  | case2 cursor function next stepped => simp [remaining_of_step? stepped]
  | case3 cursor next stepped ih => simpa [remaining_of_step? stepped] using ih

/-- The cursor behind this many calls. -/
def after : Nat → Cursor → Cursor
  | 0, cursor => cursor
  | count + 1, cursor => (after count cursor).call.2

theorem remaining_after (count : Nat) (cursor : Cursor) :
    (cursor.after count).remaining = cursor.remaining.drop count := by
  induction count with
  | zero => rfl
  | succ count ih => rw [after, (call_eq _).2, ih, List.tail_drop]

/-- The next call yields the next function. -/
theorem call_after (count : Nat) (cursor : Cursor) :
    (cursor.after count).call.1 = cursor.remaining[count]? := by
  rw [(call_eq _).1, remaining_after, List.head?_drop]

/-- A call that yields nothing is followed by no call that yields something. -/
theorem call_after_of_exhausted {cursor : Cursor} (exhausted : cursor.call.1 = none) (more : Nat) :
    (cursor.after more).call.1 = none := by
  have nothing : cursor.remaining = [] := by
    rw [(call_eq cursor).1] at exhausted
    exact List.head?_eq_none_iff.mp exhausted
  rw [call_after, nothing, List.getElem?_nil]

/-- Call after call, a cursor in front of a tree yields the function of each group with a name once, at whatever depth
and whether or not the groups around it have names, in the order of the document; the root is none of them. The calls
come to an end: exactly the first ones, as many as there are functions, yield something. Taking a number of functions
from the cursor gives that many from the front of the list. Of any cursor, no call yields something after one that
yields nothing. -/
theorem calls_yield_functions (group : Group) :
    (group.namedPositions.Pairwise (· < ·) ∧
      (∀ position, position ∈ group.namedPositions ↔
        ∃ attributes children, group.at? position = some (.group attributes children) ∧
          attributes.qualifiedName ≠ none) ∧
      group.namedPositions.map group.functionAt? = group.functions.map some) ∧
    (∀ count, ((ofGroup group).after count).call.1 = group.functions[count]?) ∧
    (∀ count, ((ofGroup group).after count).call.1 = none ↔ group.functions.length ≤ count) ∧
    (∀ count, (ofGroup group).take count = group.functions.take count) ∧
    (∀ cursor : Cursor, cursor.next? = cursor.call.1.map fun function => (function, cursor.call.2)) ∧
    ∀ cursor : Cursor, cursor.call.1 = none → ∀ more, (cursor.after more).call.1 = none := by
  have yields : ∀ count, ((ofGroup group).after count).call.1 = group.functions[count]? := by
    intro count
    rw [call_after, remaining_ofGroup]
  refine ⟨⟨Group.pairwise_namedPositions, fun _ => Group.mem_namedPositions_iff,
    Group.map_functionAt?_namedPositions⟩, yields, ?_, ?_, next?_eq_call, ?_⟩
  · intro count
    rw [yields, List.getElem?_eq_none_iff]
  · intro count
    rw [take_eq_take_remaining, remaining_ofGroup]
  · intro cursor exhausted
    exact call_after_of_exhausted exhausted

end Cursor

end ShellUnits
