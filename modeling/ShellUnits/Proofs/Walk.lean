import ShellUnits.Walk

/-!
The recursion that a walk follows.

`Children.walk?` counts the rows that it may go down. For a visitor that keeps depths the count does not
matter once it is large enough, so the walk of a row can be stated without it: `Children.walk_cons` visits
the first child, walks below it if the visitor has entered it, and goes on with the rest of the row.

What every visit keeps true of the visitor's state, the whole walk keeps true, whatever the visitor does to
the tree and wherever the walk ends.

Main statements: `Children.walk_cons`, `Group.walk_state_of_visit`.
-/

namespace ShellUnits

variable {σ S ε : Type}

/-- Walks a row with as many rows as it needs. -/
def Children.walk (visitor : Visitor σ S ε) (scope : S) (children : Children) (state : σ) : Walked σ ε :=
  Group.walk visitor scope state ⟨{}, children⟩

theorem Group.walk_eq_walk_children (visitor : Visitor σ S ε) (scope : S) (state : σ) (group : Group) :
    group.walk visitor scope state = group.children.walk visitor scope state := rfl

/-- A walk below that has an answer for more rows keeps the answers of the row. -/
theorem Children.walkRow?_mono {visitor : Visitor σ S ε}
    {below? more? : S → Children → σ → Option (Walked σ ε)}
    (extends_ : ∀ inner children state walked,
      below? inner children state = some walked → more? inner children state = some walked)
    (scope : S) : ∀ (children : Children) (state : σ) (walked : Walked σ ε),
      children.walkRow? visitor below? scope state = some walked →
        children.walkRow? visitor more? scope state = some walked
  | .nil, state, walked, h => h
  | .cons key node rest, state, walked, h => by
      simp only [Children.walkRow?] at h ⊢
      split at h
      · exact h
      · rename_i inner attributes children enters replaced
        cases found : below? inner children (visitor key node scope state).state with
        | none => simp [found] at h
        | some walkedBelow =>
            rw [extends_ _ _ _ _ found]
            simp only [found] at h ⊢
            split at h
            · exact h
            · rw [Option.map_eq_some_iff] at h ⊢
              obtain ⟨last, lastEq, walkedEq⟩ := h
              exact ⟨last, Children.walkRow?_mono extends_ scope rest _ _ lastEq, walkedEq⟩
      · rw [Option.map_eq_some_iff] at h ⊢
        obtain ⟨last, lastEq, walkedEq⟩ := h
        exact ⟨last, Children.walkRow?_mono extends_ scope rest _ _ lastEq, walkedEq⟩

/-- A walk that has an answer keeps it when it may go down one row more. -/
theorem Children.walk?_succ {visitor : Visitor σ S ε} :
    ∀ (rows : Nat) (scope : S) (children : Children) (state : σ) (walked : Walked σ ε),
      children.walk? visitor rows scope state = some walked →
        children.walk? visitor (rows + 1) scope state = some walked
  | 0, _, _, _, _, h => by simp [Children.walk?] at h
  | rows + 1, scope, children, state, walked, h =>
      Children.walkRow?_mono
        (fun inner below state walked found => Children.walk?_succ rows inner below state walked found)
        scope children state walked h

theorem Children.walk?_mono {visitor : Visitor σ S ε} {rows more : Nat} (le : rows ≤ more) {scope : S}
    {children : Children} {state : σ} {walked : Walked σ ε}
    (h : children.walk? visitor rows scope state = some walked) :
    children.walk? visitor more scope state = some walked := by
  induction le with
  | refl => exact h
  | step _ ih => exact Children.walk?_succ _ _ _ _ _ ih

/-- Any number of rows beyond the depth gives the same answer. -/
theorem Children.walk?_eq_some_walk {visitor : Visitor σ S ε} (keeps : visitor.KeepsDepth) {rows : Nat}
    {children : Children} (deep : children.depth < rows) (scope : S) (state : σ) :
    children.walk? visitor rows scope state = some (children.walk visitor scope state) :=
  Children.walk?_mono deep (Group.walk?_eq_some_walk keeps scope state ⟨{}, children⟩)

@[simp] theorem Children.walk_nil {visitor : Visitor σ S ε} (scope : S) (state : σ) :
    Children.nil.walk visitor scope state = ⟨state, .nil, .ok ()⟩ := rfl

/-- Goes on with a row after the walk below a group, unless that has failed. -/
def Walked.leave (below : Walked σ ε) (key : String) (attributes : Attributes) (rest : Children)
    (further : σ → Walked σ ε) : Walked σ ε :=
  match below.result with
  | .error failure => ⟨below.state, .cons key (.group attributes below.children) rest, .error failure⟩
  | .ok () => (further below.state).prepend key (.group attributes below.children)

theorem Walked.leave_of_error {below : Walked σ ε} {failure : ε} (h : below.result = .error failure)
    (key : String) (attributes : Attributes) (rest : Children) (further : σ → Walked σ ε) :
    below.leave key attributes rest further =
      ⟨below.state, .cons key (.group attributes below.children) rest, .error failure⟩ := by
  simp only [Walked.leave, h]

theorem Walked.leave_of_ok {below : Walked σ ε} (h : below.result = .ok ()) (key : String)
    (attributes : Attributes) (rest : Children) (further : σ → Walked σ ε) :
    below.leave key attributes rest further =
      (further below.state).prepend key (.group attributes below.children) := by
  simp only [Walked.leave, h]

/-- The walk of a row, child by child. The cases are a failing visit, a visit that enters a group, and a
visit that goes past the unit. -/
theorem Children.walk_cons {visitor : Visitor σ S ε} (keeps : visitor.KeepsDepth) (scope : S) (key : String)
    (node : Node) (rest : Children) (state : σ) :
    (Children.cons key node rest).walk visitor scope state =
      let visit := visitor key node scope state
      match visit.next, visit.node with
      | .error failure, replaced => ⟨visit.state, .cons key replaced rest, .error failure⟩
      | .ok (some inner), .group attributes children =>
        (children.walk visitor inner visit.state).leave key attributes rest (rest.walk visitor scope)
      | .ok _, replaced => (rest.walk visitor scope visit.state).prepend key replaced := by
  have restFits : rest.depth < (Children.cons key node rest).depth + 1 := by
    simp only [Children.depth]; omega
  have restWalk := fun state => Children.walk?_eq_some_walk keeps restFits scope state
  have whole := Children.walk?_eq_some_walk keeps
    (Nat.lt_succ_self (Children.cons key node rest).depth) scope state
  simp only [Children.walk?] at restWalk whole
  refine Option.some.inj (whole.symm.trans ?_)
  simp only [Children.walkRow?]
  have shallower := keeps key node scope state
  generalize visitor key node scope state = visit at shallower ⊢
  obtain ⟨visited, replaced, next⟩ := visit
  -- The two sides decide on the same visit; only the walks that they ask for are named differently.
  cases next with
  | error failure => rfl
  | ok entered =>
      cases entered with
      | none => simp only [restWalk, Option.map_some]
      | some inner =>
          cases replaced with
          | group attributes children =>
              have belowFits : children.depth < (Children.cons key node rest).depth := by
                have := shallower inner attributes children rfl rfl
                simp only [Children.depth]; omega
              simp only [Children.walk?_eq_some_walk keeps belowFits]
              cases ends : (children.walk visitor inner visited).result with
              | error failure => simp only [Walked.leave_of_error ends]
              | ok done => simp only [Walked.leave_of_ok ends, restWalk, Option.map_some]
          | command text => simp only [restWalk, Option.map_some]
          | placeholder => simp only [restWalk, Option.map_some]
          | reference ids => simp only [restWalk, Option.map_some]

/-!
### What a walk keeps true of the state
-/

section State

variable {visitor : Visitor σ S ε} {keeps : σ → Prop}

/-- A row keeps what its visits and the walks below it keep. -/
theorem Children.walkRow?_state_of_visit
    (visit : ∀ key node scope state, keeps state → keeps (visitor key node scope state).state)
    {below? : S → Children → σ → Option (Walked σ ε)}
    (below : ∀ inner children state walked,
      below? inner children state = some walked → keeps state → keeps walked.state) (scope : S) :
    ∀ (children : Children) (state : σ) (walked : Walked σ ε),
      children.walkRow? visitor below? scope state = some walked → keeps state → keeps walked.state
  | .nil, state, walked, h, kept => by
      simp only [Children.walkRow?, Option.some.injEq] at h
      rw [← h]
      exact kept
  | .cons key node rest, state, walked, h, kept => by
      have visited := visit key node scope state kept
      simp only [Children.walkRow?] at h
      split at h
      · simp only [Option.some.injEq] at h
        rw [← h]
        exact visited
      · rename_i inner attributes children enters replaced
        cases found : below? inner children (visitor key node scope state).state with
        | none => simp [found] at h
        | some walkedBelow =>
            have left := below _ _ _ _ found visited
            simp only [found] at h
            split at h
            · simp only [Option.some.injEq] at h
              rw [← h]
              exact left
            · rw [Option.map_eq_some_iff] at h
              obtain ⟨last, lastEq, rfl⟩ := h
              exact Children.walkRow?_state_of_visit visit below scope rest _ last lastEq left
      · rw [Option.map_eq_some_iff] at h
        obtain ⟨last, lastEq, rfl⟩ := h
        exact Children.walkRow?_state_of_visit visit below scope rest _ last lastEq visited

theorem Children.walk?_state_of_visit
    (visit : ∀ key node scope state, keeps state → keeps (visitor key node scope state).state) :
    ∀ (rows : Nat) (scope : S) (children : Children) (state : σ) (walked : Walked σ ε),
      children.walk? visitor rows scope state = some walked → keeps state → keeps walked.state
  | 0, _, _, _, _, h, _ => by simp [Children.walk?] at h
  | rows + 1, scope, children, state, walked, h, kept =>
      Children.walkRow?_state_of_visit visit
        (fun inner below state walked => Children.walk?_state_of_visit visit rows inner below state walked)
        scope children state walked h kept

/-- A walk keeps what each visit keeps. -/
theorem Group.walk_state_of_visit
    (visit : ∀ key node scope state, keeps state → keeps (visitor key node scope state).state)
    (group : Group) (scope : S) {state : σ} (kept : keeps state) :
    keeps (group.walk visitor scope state).state := by
  unfold Group.walk
  cases h : group.children.walk? visitor (group.children.depth + 1) scope state with
  | none => exact kept
  | some walked => exact Children.walk?_state_of_visit visit _ scope _ state walked h kept

end State

end ShellUnits
