import ShellUnits.Unit

/-!
Walking a tree of units with a visitor that may change it.

A walk goes through the children of a group from left to right. Each child is shown to the visitor, which
puts a unit back in its place and says whether to go on below it: if it gives a scope and the unit put back
is a group, the children of that group are walked with that scope before the next sibling is visited. The
first failure ends the walk, and what has not been visited stays as it was.

A visitor may put back a larger unit than it was shown, so a walk need not end by itself. `Children.walk?`
takes the number of rows that it may go down and has no answer where that is too small. A visitor that
never deepens the tree below a unit that it lets the walk enter needs no more rows than the tree has, and
`Group.walk` gives it those.

Main definitions: `Visit`, `Visitor`, `Children.walk?`, `Group.walk`.
Main statement: `Group.walk?_eq_some_walk`, a visitor that keeps depths is never stopped for want of rows.
-/

namespace ShellUnits

/-- The answer of a visitor: its own state, the unit put back, and a failure or the scope for going on
    below that unit. -/
structure Visit (σ S ε : Type) where
  state : σ
  node : Node
  next : Except ε (Option S)

/-- A visitor with states in `σ`, scopes in `S` and failures in `ε`. It is shown a key, the unit under it,
    the scope of the group that holds the unit, and its own state. -/
abbrev Visitor (σ S ε : Type) := String → Node → S → σ → Visit σ S ε

/-- A row of children after a walk. -/
structure Walked (σ ε : Type) where
  state : σ
  children : Children
  result : Except ε Unit

variable {σ S ε : Type}

/-- Puts a child that has been dealt with back in front of the rest of its row. -/
def Walked.prepend (key : String) (node : Node) (walked : Walked σ ε) : Walked σ ε :=
  { walked with children := .cons key node walked.children }

/-- Walks one row of siblings; `below?` walks the children of a group that the visitor has entered. -/
def Children.walkRow? (visitor : Visitor σ S ε)
    (below? : S → Children → σ → Option (Walked σ ε)) (scope : S) :
    Children → σ → Option (Walked σ ε)
  | .nil, state => some ⟨state, .nil, .ok ()⟩
  | .cons key node rest, state =>
    let visit := visitor key node scope state
    match visit.next, visit.node with
    | .error failure, replaced => some ⟨visit.state, .cons key replaced rest, .error failure⟩
    | .ok (some inner), .group attributes children =>
      match below? inner children visit.state with
      | none => none
      | some walked =>
        let entered := Node.group attributes walked.children
        match walked.result with
        | .error failure => some ⟨walked.state, .cons key entered rest, .error failure⟩
        | .ok () => (rest.walkRow? visitor below? scope walked.state).map (Walked.prepend key entered)
    | .ok _, replaced =>
      (rest.walkRow? visitor below? scope visit.state).map (Walked.prepend key replaced)

/-- Walks a row and what the visitor enters below it, going down at most this many rows. -/
def Children.walk? (visitor : Visitor σ S ε) : Nat → S → Children → σ → Option (Walked σ ε)
  | 0, _, _, _ => none
  | rows + 1, scope, children, state =>
    children.walkRow? visitor (Children.walk? visitor rows) scope state

/-- Walks the children of a group with a visitor that never deepens what it enters. -/
def Group.walk (visitor : Visitor σ S ε) (scope : S) (state : σ) (group : Group) : Walked σ ε :=
  (group.children.walk? visitor (group.children.depth + 1) scope state).getD
    ⟨state, group.children, .ok ()⟩

/-!
### Walks that need no more rows than the tree has
-/

/-- The visitor never lets the walk enter a group that is deeper than the unit it was shown. -/
def Visitor.KeepsDepth (visitor : Visitor σ S ε) : Prop :=
  ∀ key node scope state inner attributes children,
    (visitor key node scope state).next = .ok (some inner) →
      (visitor key node scope state).node = .group attributes children →
        children.depth < node.depth

/-- A row is walked to its end if all that may be entered below it is. -/
theorem Children.exists_walkRow? {visitor : Visitor σ S ε} (keeps : visitor.KeepsDepth) (rows : Nat)
    {below? : S → Children → σ → Option (Walked σ ε)}
    (below : ∀ inner children state, children.depth < rows →
      ∃ walked, below? inner children state = some walked) (scope : S) :
    ∀ (children : Children) (state : σ), children.depth ≤ rows →
      ∃ walked, children.walkRow? visitor below? scope state = some walked
  | .nil, state, _ => ⟨_, rfl⟩
  | .cons key node rest, state, fits => by
    simp only [Children.depth] at fits
    have further := fun state =>
      Children.exists_walkRow? keeps rows below scope rest state (by omega)
    simp only [Children.walkRow?]
    split
    · exact ⟨_, rfl⟩
    · rename_i inner attributes children enters replaced
      have shallower := keeps _ _ _ _ _ _ _ enters replaced
      obtain ⟨walked, walkedEq⟩ := below inner children (visitor key node scope state).state (by omega)
      rw [walkedEq]
      simp only
      split
      · exact ⟨_, rfl⟩
      · obtain ⟨last, lastEq⟩ := further walked.state
        exact ⟨_, by rw [lastEq]; rfl⟩
    · obtain ⟨last, lastEq⟩ := further (visitor key node scope state).state
      exact ⟨_, by rw [lastEq]; rfl⟩

/-- One row more than the depth is enough for a visitor that keeps depths. -/
theorem Children.exists_walk? {visitor : Visitor σ S ε} (keeps : visitor.KeepsDepth) :
    ∀ (rows : Nat) (scope : S) (children : Children) (state : σ), children.depth < rows →
      ∃ walked, children.walk? visitor rows scope state = some walked
  | 0, _, _, _, fits => absurd fits (Nat.not_lt_zero _)
  | rows + 1, scope, children, state, fits =>
    Children.exists_walkRow? keeps rows
      (fun inner children state shallower => Children.exists_walk? keeps rows inner children state shallower)
      scope children state (Nat.le_of_lt_succ fits)

theorem Group.walk?_eq_some_walk {visitor : Visitor σ S ε} (keeps : visitor.KeepsDepth) (scope : S)
    (state : σ) (group : Group) :
    group.children.walk? visitor (group.children.depth + 1) scope state =
      some (group.walk visitor scope state) := by
  obtain ⟨walked, walkedEq⟩ :=
    Children.exists_walk? keeps (group.children.depth + 1) scope group.children state (Nat.lt_succ_self _)
  simp [Group.walk, walkedEq]

end ShellUnits
