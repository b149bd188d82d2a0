import ShellUnits.Proofs.Calls
import ShellUnits.Proofs.Walk

/-!
The traversal that a walk is, whatever the visitor.

A visitor may put back any unit in the place of the one that it was shown, give any scope or none, fail, and change
its own state. So what a walk goes through is not the tree that it was given: it is decided visit by visit. The
showings of a walk are its visits with their positions. Which units have to be shown can be read off the showings
themselves (`Children.Due`): the children of the row that is walked, and those of each group that a visit has made the
walk go into. That they are shown from left to right and from the outside in is then a matter of their positions,
which have the order of the document.

A visitor that puts back ever deeper groups makes a walk go down for ever. The showings of a walk that may go down a
number of rows are stated together with its outcome, also where it has none (`Children.Walks`); all else is shown by
induction on this relation.

Main definitions: `Showing`, `Children.Due`, `Children.Walks`, `Visitor.Traverses`, `Visitor.EndsWith`.
Main statement: `Group.walk?_preorder`.
-/

namespace ShellUnits

variable {σ S ε : Type}

/-!
### Showings
-/

/-- The scope and the group that the walk goes into after a visit: the visitor has given a scope, and the unit put
back is a group. -/
def Visit.entered? (visit : Visit σ S ε) : Option (S × Attributes × Children) :=
  match visit.next, visit.node with
  | .ok (some inner), .group attributes children => some (inner, attributes, children)
  | _, _ => none

theorem Visit.entered?_eq_some_iff {visit : Visit σ S ε} {inner : S} {attributes : Attributes} {row : Children} :
    visit.entered? = some (inner, attributes, row) ↔
      visit.next = .ok (some inner) ∧ visit.node = .group attributes row := by
  unfold Visit.entered?
  split
  · rename_i next replaced
    simp [next, replaced]
  · rename_i other
    simp only [reduceCtorEq, false_iff, not_and]
    intro next replaced
    exact other _ _ _ next replaced

theorem Visit.entered?_of_error {visit : Visit σ S ε} {failure : ε} (failed : visit.next = .error failure) :
    visit.entered? = none := by
  simp [Visit.entered?, failed]

/-- One showing of a unit to the visitor: the position of the unit, counted by places in rows of siblings, and what the
visitor is given. -/
structure Showing (σ S : Type) where
  position : List Nat
  key : String
  node : Node
  scope : S
  state : σ

namespace Showing

/-- What the visitor answers. -/
def visit (visitor : Visitor σ S ε) (showing : Showing σ S) : Visit σ S ε :=
  visitor showing.key showing.node showing.scope showing.state

/-- The showing as seen from the row around: its row is that of the unit at this place. -/
def under (place : Nat) (showing : Showing σ S) : Showing σ S :=
  { showing with position := place :: showing.position }

@[simp] theorem visit_mk (visitor : Visitor σ S ε) (position : List Nat) (key : String) (node : Node) (scope : S)
    (state : σ) : (mk position key node scope state).visit visitor = visitor key node scope state := rfl

@[simp] theorem visit_under (visitor : Visitor σ S ε) (place : Nat) (showing : Showing σ S) :
    (showing.under place).visit visitor = showing.visit visitor := rfl

@[simp] theorem position_under (place : Nat) (showing : Showing σ S) :
    (showing.under place).position = place :: showing.position := rfl

end Showing

/-- A child that a walk has to come to: one of the row that is walked, whose first child has this place, or one of a
row that it has entered on the way. It comes with its position, the scope of its row, its key, and the unit that stands
there. -/
inductive Children.Due (visitor : Visitor σ S ε) (scope : S) (place : Nat) (children : Children)
    (showings : List (Showing σ S)) : List Nat → S → String → Node → Prop where
  | outermost {nth : Nat} {key : String} {node : Node} (there : children.toList[nth]? = some (key, node)) :
      Due visitor scope place children showings [place + nth] scope key node
  | below {showing : Showing σ S} {inner : S} {attributes : Attributes} {row : Children} {nth : Nat} {key : String}
      {node : Node} (mem : showing ∈ showings)
      (entered : (showing.visit visitor).entered? = some (inner, attributes, row))
      (there : row.toList[nth]? = some (key, node)) :
      Due visitor scope place children showings (showing.position ++ [nth]) inner key node

/-!
### Walks with their showings
-/

/-- A walk of a row whose first child has this place, with all showings in their order. It may go down this many rows;
where it would have to go down further, it has no outcome. -/
inductive Children.Walks (visitor : Visitor σ S ε) :
    (rows : Nat) → (scope : S) → (place : Nat) → Children → σ → List (Showing σ S) → Option (Walked σ ε) → Prop where
  /-- No row may be walked any more. -/
  | exhausted {scope : S} {place : Nat} {children : Children} {state : σ} :
      Walks visitor 0 scope place children state [] none
  /-- The row is at its end. -/
  | nil {rows : Nat} {scope : S} {place : Nat} {state : σ} :
      Walks visitor (rows + 1) scope place .nil state [] (some ⟨state, .nil, .ok ()⟩)
  /-- The visit of the first child fails. -/
  | fails {rows : Nat} {scope : S} {place : Nat} {key : String} {node : Node} {rest : Children} {state : σ}
      {failure : ε} (failed : (visitor key node scope state).next = .error failure) :
      Walks visitor (rows + 1) scope place (.cons key node rest) state [⟨[place], key, node, scope, state⟩]
        (some ⟨(visitor key node scope state).state, .cons key (visitor key node scope state).node rest,
          .error failure⟩)
  /-- The walk goes past the first child. -/
  | passes {rows : Nat} {scope : S} {place : Nat} {key : String} {node : Node} {rest : Children} {state : σ}
      {answer : Option S} {later : List (Showing σ S)} {outcome : Option (Walked σ ε)}
      (answered : (visitor key node scope state).next = .ok answer)
      (notEntered : (visitor key node scope state).entered? = none)
      (goesOn : Walks visitor (rows + 1) scope (place + 1) rest (visitor key node scope state).state later outcome) :
      Walks visitor (rows + 1) scope place (.cons key node rest) state
        (⟨[place], key, node, scope, state⟩ :: later)
        (outcome.map (Walked.prepend key (visitor key node scope state).node))
  /-- The walk goes into the first child and does not come out to go on. -/
  | stops {rows : Nat} {scope : S} {place : Nat} {key : String} {node : Node} {rest : Children} {state : σ}
      {inner : S} {attributes : Attributes} {row : Children} {below : List (Showing σ S)}
      {outcome : Option (Walked σ ε)}
      (entered : (visitor key node scope state).entered? = some (inner, attributes, row))
      (goesIn : Walks visitor rows inner 0 row (visitor key node scope state).state below outcome)
      (ended : ∀ walked ∈ outcome, walked.result ≠ .ok ()) :
      Walks visitor (rows + 1) scope place (.cons key node rest) state
        (⟨[place], key, node, scope, state⟩ :: below.map (Showing.under place))
        (outcome.map fun walked => ⟨walked.state, .cons key (.group attributes walked.children) rest, walked.result⟩)
  /-- The walk goes into the first child and on behind it. -/
  | enters {rows : Nat} {scope : S} {place : Nat} {key : String} {node : Node} {rest : Children} {state : σ}
      {inner : S} {attributes : Attributes} {row : Children} {below later : List (Showing σ S)}
      {walked : Walked σ ε} {outcome : Option (Walked σ ε)}
      (entered : (visitor key node scope state).entered? = some (inner, attributes, row))
      (goesIn : Walks visitor rows inner 0 row (visitor key node scope state).state below (some walked))
      (ended : walked.result = .ok ())
      (goesOn : Walks visitor (rows + 1) scope (place + 1) rest walked.state later outcome) :
      Walks visitor (rows + 1) scope place (.cons key node rest) state
        (⟨[place], key, node, scope, state⟩ :: (below.map (Showing.under place) ++ later))
        (outcome.map (Walked.prepend key (.group attributes walked.children)))

section Row

variable {visitor : Visitor σ S ε} {below? : S → Children → σ → Option (Walked σ ε)} {scope : S} {key : String}
  {node : Node} {rest : Children} {state : σ}

theorem Children.walkRow?_of_error {failure : ε} (failed : (visitor key node scope state).next = .error failure) :
    (Children.cons key node rest).walkRow? visitor below? scope state =
      some ⟨(visitor key node scope state).state, .cons key (visitor key node scope state).node rest,
        .error failure⟩ := by
  simp only [Children.walkRow?, failed]

theorem Children.walkRow?_of_not_entered {answer : Option S}
    (answered : (visitor key node scope state).next = .ok answer)
    (notEntered : (visitor key node scope state).entered? = none) :
    (Children.cons key node rest).walkRow? visitor below? scope state =
      (rest.walkRow? visitor below? scope (visitor key node scope state).state).map
        (Walked.prepend key (visitor key node scope state).node) := by
  simp only [Children.walkRow?]
  split
  · rename_i failed
    simp [answered] at failed
  · rename_i entered replaced
    simp [Visit.entered?, entered, replaced] at notEntered
  · rfl

theorem Children.walkRow?_of_entered {inner : S} {attributes : Attributes} {row : Children}
    (entered : (visitor key node scope state).entered? = some (inner, attributes, row)) :
    (Children.cons key node rest).walkRow? visitor below? scope state =
      (below? inner row (visitor key node scope state).state).bind fun walked =>
        match walked.result with
        | .error failure => some ⟨walked.state, .cons key (.group attributes walked.children) rest, .error failure⟩
        | .ok () => (rest.walkRow? visitor below? scope walked.state).map
            (Walked.prepend key (.group attributes walked.children)) := by
  obtain ⟨next, replaced⟩ := Visit.entered?_eq_some_iff.mp entered
  simp only [Children.walkRow?, next, replaced]
  cases below? inner row (visitor key node scope state).state <;> rfl

/-- A row is walked with some showings, if all that may be entered below it is. -/
theorem Children.exists_showingsRow {rows : Nat}
    (below : ∀ inner children state,
      ∃ showings, Children.Walks visitor rows inner 0 children state showings (below? inner children state))
    (scope : S) : ∀ (children : Children) (place : Nat) (state : σ),
      ∃ showings, Children.Walks visitor (rows + 1) scope place children state showings
        (children.walkRow? visitor below? scope state)
  | .nil, _, _ => ⟨[], .nil⟩
  | .cons key node rest, place, state => by
      cases entered : (visitor key node scope state).entered? with
      | none =>
          cases next : (visitor key node scope state).next with
          | error failure =>
              rw [Children.walkRow?_of_error next]
              exact ⟨_, .fails next⟩
          | ok answer =>
              obtain ⟨later, goesOn⟩ := Children.exists_showingsRow below scope rest (place + 1)
                (visitor key node scope state).state
              rw [Children.walkRow?_of_not_entered next entered]
              exact ⟨_, .passes next entered goesOn⟩
      | some group =>
          obtain ⟨inner, attributes, row⟩ := group
          obtain ⟨showings, goesIn⟩ := below inner row (visitor key node scope state).state
          rw [Children.walkRow?_of_entered entered]
          cases outcome : below? inner row (visitor key node scope state).state with
          | none =>
              rw [outcome] at goesIn
              exact ⟨_, .stops entered goesIn (by simp)⟩
          | some walked =>
              rw [outcome] at goesIn
              cases ended : walked.result with
              | error failure =>
                  simp only [Option.bind_some, ended]
                  rw [← ended]
                  exact ⟨_, .stops entered goesIn (by simp [ended])⟩
              | ok done =>
                  obtain ⟨later, goesOn⟩ := Children.exists_showingsRow below scope rest (place + 1) walked.state
                  simp only [Option.bind_some, ended]
                  exact ⟨_, .enters entered goesIn ended goesOn⟩

end Row

/-- However many rows it may go down, a walk has its showings. -/
theorem Children.exists_showings (visitor : Visitor σ S ε) :
    ∀ (rows : Nat) (scope : S) (place : Nat) (children : Children) (state : σ),
      ∃ showings, Children.Walks visitor rows scope place children state showings
        (children.walk? visitor rows scope state)
  | 0, _, _, _, _ => ⟨[], .exhausted⟩
  | rows + 1, scope, place, children, state =>
      have below := fun inner children state => Children.exists_showings visitor rows inner 0 children state
      Children.exists_showingsRow below scope children place state

/-!
### Positions
-/

/-- The position begins with a place in a row whose first child has this place. -/
def StandsFrom (place : Nat) (position : List Nat) : Prop :=
  ∃ first below, position = first :: below ∧ place ≤ first

namespace StandsFrom

variable {place : Nat} {position : List Nat}

theorem here (below : List Nat) : StandsFrom place (place :: below) :=
  ⟨place, below, rfl, Nat.le_refl place⟩

theorem of_succ (stands : StandsFrom (place + 1) position) : StandsFrom place position := by
  obtain ⟨first, below, rfl, behind⟩ := stands
  exact ⟨first, below, rfl, Nat.le_of_succ_le behind⟩

theorem append (stands : StandsFrom place position) (below : List Nat) : StandsFrom place (position ++ below) := by
  obtain ⟨first, after, rfl, behind⟩ := stands
  exact ⟨first, after ++ below, rfl, behind⟩

/-- The rest of a row stands behind the child in front of it and all that is in it. -/
theorem behind (stands : StandsFrom (place + 1) position) (below : List Nat) : place :: below < position := by
  obtain ⟨first, after, rfl, behind⟩ := stands
  exact List.cons_lt_cons_iff.mpr (.inl behind)

/-- The children of a group stand behind the group. -/
theorem inside (stands : StandsFrom place position) (group : Nat) : [group] < group :: position := by
  obtain ⟨first, below, rfl, -⟩ := stands
  exact List.cons_lt_cons_iff.mpr (.inr ⟨rfl, List.nil_lt_cons _ _⟩)

end StandsFrom

theorem under_lt_under {position other : List Nat} (place : Nat) (lt : position < other) :
    place :: position < place :: other :=
  List.cons_lt_cons_iff.mpr (.inr ⟨rfl, lt⟩)

section Positions

variable {visitor : Visitor σ S ε} {rows place : Nat} {scope : S} {children : Children} {state : σ}
  {showings : List (Showing σ S)} {outcome : Option (Walked σ ε)}

/-- In a walk of a row, positions begin with a place of the row. -/
theorem Children.Walks.fromPlace (walks : Children.Walks visitor rows scope place children state showings outcome) :
    ∀ showing ∈ showings, StandsFrom place showing.position := by
  induction walks with
  | exhausted => simp
  | nil => simp
  | fails failed =>
      rw [List.forall_mem_singleton]
      exact .here []
  | passes answered notEntered goesOn ih =>
      rw [List.forall_mem_cons]
      exact ⟨.here [], fun showing mem => (ih showing mem).of_succ⟩
  | stops entered goesIn ended ih =>
      rw [List.forall_mem_cons, List.forall_mem_map]
      exact ⟨.here [], fun showing _ => .here showing.position⟩
  | enters entered goesIn ended goesOn ihIn ihOn =>
      rw [List.forall_mem_cons, List.forall_mem_append, List.forall_mem_map]
      exact ⟨.here [], fun showing _ => .here showing.position, fun showing mem => (ihOn showing mem).of_succ⟩

/-- Units are shown in the order of their positions. -/
theorem Children.Walks.inOrder (walks : Children.Walks visitor rows scope place children state showings outcome) :
    showings.Pairwise fun earlier later => earlier.position < later.position := by
  induction walks with
  | exhausted => exact .nil
  | nil => exact .nil
  | fails failed => exact List.pairwise_singleton _ _
  | passes answered notEntered goesOn ih =>
      exact List.pairwise_cons.mpr ⟨fun later mem => (goesOn.fromPlace later mem).behind [], ih⟩
  | stops entered goesIn ended ih =>
      rw [List.pairwise_cons, List.forall_mem_map, List.pairwise_map]
      exact ⟨fun showing mem => (goesIn.fromPlace showing mem).inside _, ih.imp (under_lt_under _)⟩
  | enters entered goesIn ended goesOn ihIn ihOn =>
      rw [List.pairwise_cons, List.forall_mem_append, List.forall_mem_map, List.pairwise_append, List.pairwise_map]
      have behind := fun later mem => (goesOn.fromPlace later mem).behind
      refine ⟨⟨?_, fun later mem => behind later mem []⟩, ihIn.imp (under_lt_under _), ihOn, ?_⟩
      · exact fun showing mem => (goesIn.fromPlace showing mem).inside _
      · rw [List.forall_mem_map]
        exact fun earlier _ later mem => behind later mem earlier.position

/-!
### Failures and states
-/

/-- A walk ends with a failure exactly if a visit has failed with it; a walk that is cut off has met no failure. -/
theorem Children.Walks.failed_iff (walks : Children.Walks visitor rows scope place children state showings outcome)
    (failure : ε) :
    (∃ walked ∈ outcome, walked.result = .error failure) ↔
      ∃ showing ∈ showings, (showing.visit visitor).next = .error failure := by
  induction walks with
  | exhausted => simp
  | nil => simp
  | fails failed => simp [failed]
  | passes answered notEntered goesOn ih => simpa [answered, Walked.prepend] using ih
  | stops entered goesIn ended ih => simpa [(Visit.entered?_eq_some_iff.mp entered).1] using ih
  | enters entered goesIn ended goesOn ihIn ihOn =>
      have noneBelow := ihIn.not.mp (by simp [ended])
      have sameEnd : ∀ outcome : Option (Walked σ ε), ∀ key node,
          (∃ walked ∈ outcome.map (Walked.prepend key node), walked.result = .error failure) ↔
            ∃ walked ∈ outcome, walked.result = .error failure := by simp [Walked.prepend]
      rw [sameEnd, ihOn]
      constructor
      · rintro ⟨showing, mem, failed⟩
        exact ⟨showing, List.mem_cons_of_mem _ (List.mem_append_right _ mem), failed⟩
      · rintro ⟨showing, mem, failed⟩
        rcases List.mem_cons.mp mem with rfl | mem
        · simp [(Visit.entered?_eq_some_iff.mp entered).1] at failed
        · rcases List.mem_append.mp mem with inGroup | later
          · obtain ⟨earlier, memBelow, rfl⟩ := List.mem_map.mp inGroup
            exact absurd ⟨earlier, memBelow, failed⟩ noneBelow
          · exact ⟨showing, later, failed⟩

/-- Nothing is shown after a failure. -/
theorem Children.Walks.stopsAtFailure
    (walks : Children.Walks visitor rows scope place children state showings outcome) :
    showings.Pairwise fun earlier _ => ∀ failure, (earlier.visit visitor).next ≠ .error failure := by
  induction walks with
  | exhausted => exact .nil
  | nil => exact .nil
  | fails failed => exact List.pairwise_singleton _ _
  | passes answered notEntered goesOn ih =>
      exact List.pairwise_cons.mpr ⟨fun _ _ _ => by simp [answered], ih⟩
  | stops entered goesIn ended ih =>
      refine List.pairwise_cons.mpr ⟨fun _ _ _ => by simp [(Visit.entered?_eq_some_iff.mp entered).1], ?_⟩
      exact List.pairwise_map.mpr ih
  | enters entered goesIn ended goesOn ihIn ihOn =>
      refine List.pairwise_cons.mpr ⟨fun _ _ _ => by simp [(Visit.entered?_eq_some_iff.mp entered).1], ?_⟩
      refine List.pairwise_append.mpr ⟨List.pairwise_map.mpr ihIn, ihOn, ?_⟩
      rw [List.forall_mem_map]
      intro showing mem _ _ failure failed
      -- A failure below would have ended the walk there.
      obtain ⟨walked, same, result⟩ := (goesIn.failed_iff failure).mpr ⟨showing, mem, failed⟩
      obtain rfl := Option.some.inj same
      simp [ended] at result

/-- The visitor's own state goes from each visit to the next. -/
theorem Children.Walks.threaded
    (walks : Children.Walks visitor rows scope place children state showings outcome) :
    ∃ final, showings.map Showing.state ++ [final] =
        state :: showings.map (fun showing => (showing.visit visitor).state) ∧
      ∀ walked ∈ outcome, walked.state = final := by
  induction walks with
  | exhausted => exact ⟨_, rfl, by simp⟩
  | nil => exact ⟨_, rfl, by simp⟩
  | fails failed => exact ⟨_, rfl, by simp⟩
  | passes answered notEntered goesOn ih =>
      obtain ⟨final, states, last⟩ := ih
      refine ⟨final, ?_, by simpa [Walked.prepend] using last⟩
      rw [List.map_cons, List.cons_append, states, List.map_cons, Showing.visit_mk]
  | stops entered goesIn ended ih =>
      obtain ⟨final, states, last⟩ := ih
      refine ⟨final, ?_, by simpa using last⟩
      rw [List.map_cons, List.cons_append, List.map_map, List.map_cons, List.map_map]
      exact congrArg _ states
  | enters entered goesIn ended goesOn ihIn ihOn =>
      obtain ⟨final, states, last⟩ := ihOn
      obtain ⟨handedOn, statesIn, lastIn⟩ := ihIn
      obtain rfl := lastIn _ rfl
      refine ⟨final, ?_, by simpa [Walked.prepend] using last⟩
      rw [List.map_cons, List.cons_append, List.map_cons, List.map_append, List.map_append, List.append_assoc, states,
        List.append_cons, List.map_map, List.map_map]
      exact congrArg (fun states => _ :: (states ++ _)) statesIn

end Positions

/-!
### Children that the walk has to come to
-/

section Due

variable {visitor : Visitor σ S ε} {scope inner : S} {place : Nat} {key k : String} {node n : Node}
  {attributes : Attributes} {row children rest : Children} {first : Showing σ S}
  {below later showings : List (Showing σ S)} {position : List Nat} {s : S}

/-- What the walk has to come to in the rest of a row, it has to come to in the row. -/
theorem Children.Due.ofRest (sub : later ⊆ showings)
    (due : Children.Due visitor scope (place + 1) rest later position s k n) :
    Children.Due visitor scope place (.cons key node rest) showings position s k n := by
  cases due with
  | outermost there =>
      rw [Nat.add_right_comm, Nat.add_assoc]
      exact .outermost there
  | below mem entered there => exact .below (sub mem) entered there

/-- What the walk has to come to in the group of the first child, it has to come to in the row. -/
theorem Children.Due.ofGroup (mem : first ∈ showings) (stands : first.position = [place])
    (entered : (first.visit visitor).entered? = some (inner, attributes, row))
    (sub : below.map (Showing.under place) ⊆ showings)
    (due : Children.Due visitor inner 0 row below position s k n) :
    Children.Due visitor scope place children showings (place :: position) s k n := by
  cases due with
  | outermost there =>
      rw [Nat.zero_add, ← List.singleton_append, ← stands]
      exact .below mem entered there
  | below memBelow enteredBelow there =>
      exact .below (sub (List.mem_map_of_mem memBelow)) enteredBelow there

/-- The walk has to come to the first child. -/
theorem Children.Due.head :
    Children.Due visitor scope place (.cons key node rest) showings [place] scope key node :=
  .outermost (show (Children.cons key node rest).toList[0]? = some (key, node) from rfl)

/-- A child of a row is the first one or one of the rest. -/
theorem Children.Due.of_outermost {nth : Nat} (there : (Children.cons key node rest).toList[nth]? = some (k, n)) :
    ([place + nth] = [place] ∧ k = key ∧ n = node) ∨
      Children.Due visitor scope (place + 1) rest later [place + nth] scope k n := by
  cases nth with
  | zero =>
      simp only [Children.toList, List.getElem?_cons_zero, Option.some.injEq, Prod.mk.injEq] at there
      exact .inl ⟨rfl, there.1.symm, there.2.symm⟩
  | succ nth =>
      rw [Nat.add_comm nth, ← Nat.add_assoc]
      exact .inr (.outermost there)

/-- If the walk does not go into the first child, it has to come to that child and to what is in the rest of the row. -/
theorem Children.Due.cons_of_not_entered
    (due : Children.Due visitor scope place (.cons key node rest) (first :: later) position s k n)
    (notEntered : (first.visit visitor).entered? = none) :
    (position = [place] ∧ k = key ∧ n = node) ∨
      Children.Due visitor scope (place + 1) rest later position s k n := by
  cases due with
  | outermost there => exact Children.Due.of_outermost there
  | below mem entered there =>
      rcases List.mem_cons.mp mem with rfl | after
      · simp [notEntered] at entered
      · exact .inr (.below after entered there)

/-- If the walk goes into the first child, it has to come to what is in the group of that child too. -/
theorem Children.Due.cons_of_entered
    (due : Children.Due visitor scope place (.cons key node rest)
      (first :: (below.map (Showing.under place) ++ later)) position s k n)
    (stands : first.position = [place])
    (entered : (first.visit visitor).entered? = some (inner, attributes, row)) :
    (position = [place] ∧ k = key ∧ n = node) ∨
      (∃ after, position = place :: after ∧ Children.Due visitor inner 0 row below after s k n) ∨
      Children.Due visitor scope (place + 1) rest later position s k n := by
  cases due with
  | outermost there => exact (Children.Due.of_outermost there).imp_right .inr
  | @below showing _ _ _ nth _ _ mem enteredToo there =>
      rcases List.mem_cons.mp mem with rfl | mem
      · rw [entered, Option.some.injEq, Prod.mk.injEq, Prod.mk.injEq] at enteredToo
        obtain ⟨rfl, rfl, rfl⟩ := enteredToo
        refine .inr (.inl ⟨[nth], by rw [stands]; rfl, ?_⟩)
        rw [← Nat.zero_add nth]
        exact .outermost there
      · rcases List.mem_append.mp mem with under | after
        · obtain ⟨earlier, memBelow, rfl⟩ := List.mem_map.mp under
          exact .inr (.inl ⟨_, rfl, .below memBelow enteredToo there⟩)
        · exact .inr (.inr (.below after enteredToo there))

/-- What the walk has to come to stands in the row, if all showings do. -/
theorem Children.Due.fromPlace (stand : ∀ showing ∈ showings, StandsFrom place showing.position)
    (due : Children.Due visitor scope place children showings position s k n) : StandsFrom place position := by
  cases due with
  | outermost there => exact ⟨_, _, rfl, Nat.le_add_right _ _⟩
  | below mem entered there => exact (stand _ mem).append _

end Due

section Coverage

variable {visitor : Visitor σ S ε} {rows place : Nat} {scope : S} {children : Children} {state : σ}
  {showings : List (Showing σ S)} {outcome : Option (Walked σ ε)}

/-- Only what the walk has to come to is shown, with the scope of its row. -/
theorem Children.Walks.due (walks : Children.Walks visitor rows scope place children state showings outcome) :
    ∀ showing ∈ showings,
      Children.Due visitor scope place children showings showing.position showing.scope showing.key showing.node := by
  induction walks with
  | exhausted => simp
  | nil => simp
  | fails failed =>
      rw [List.forall_mem_singleton]
      exact .head
  | passes answered notEntered goesOn ih =>
      rw [List.forall_mem_cons]
      refine ⟨.head, ?_⟩
      intro showing mem
      exact (ih showing mem).ofRest (List.subset_cons_self _ _)
  | stops entered goesIn ended ih =>
      rw [List.forall_mem_cons, List.forall_mem_map]
      refine ⟨.head, ?_⟩
      intro showing mem
      exact (ih showing mem).ofGroup List.mem_cons_self rfl entered (List.subset_cons_self _ _)
  | enters entered goesIn ended goesOn ihIn ihOn =>
      rw [List.forall_mem_cons, List.forall_mem_append, List.forall_mem_map]
      refine ⟨.head, ?_, ?_⟩
      · intro showing mem
        refine (ihIn showing mem).ofGroup List.mem_cons_self rfl entered ?_
        exact List.Subset.trans (List.subset_append_left _ _) (List.subset_cons_self _ _)
      · intro showing mem
        refine (ihOn showing mem).ofRest ?_
        exact List.Subset.trans (List.subset_append_right _ _) (List.subset_cons_self _ _)

/-- What the walk has to come to is shown, unless the walk has ended before: then all that is shown stands in front of
it. A walk that ends well shows all that it has to come to. -/
theorem Children.Walks.shown_or_behind
    (walks : Children.Walks visitor rows scope place children state showings outcome) :
    ∀ {position : List Nat} {s : S} {k : String} {n : Node},
      Children.Due visitor scope place children showings position s k n →
        (∃ showing ∈ showings, showing.position = position) ∨
          (∀ walked ∈ outcome, walked.result ≠ .ok ()) ∧ ∀ showing ∈ showings, showing.position < position := by
  induction walks with
  | exhausted =>
      intro position s k n due
      exact .inr ⟨by simp, by simp⟩
  | nil =>
      intro position s k n due
      cases due with
      | outermost there => simp [Children.toList] at there
      | below mem entered there => simp at mem
  | fails failed =>
      intro position s k n due
      rcases due.cons_of_not_entered (Visit.entered?_of_error failed) with ⟨rfl, -⟩ | later
      · exact .inl ⟨_, List.mem_singleton_self _, rfl⟩
      · refine .inr ⟨by simp, ?_⟩
        rw [List.forall_mem_singleton]
        exact (later.fromPlace (by simp)).behind []
  | passes answered notEntered goesOn ih =>
      intro position s k n due
      rcases due.cons_of_not_entered notEntered with ⟨rfl, -⟩ | later
      · exact .inl ⟨_, List.mem_cons_self, rfl⟩
      · rcases ih later with ⟨showing, mem, same⟩ | ⟨ended, before⟩
        · exact .inl ⟨showing, List.mem_cons_of_mem _ mem, same⟩
        · refine .inr ⟨by simpa [Walked.prepend] using ended, ?_⟩
          rw [List.forall_mem_cons]
          exact ⟨(later.fromPlace goesOn.fromPlace).behind [], before⟩
  | @stops _ _ _ key node rest _ _ _ _ below _ entered goesIn ended ih =>
      intro position s k n due
      rw [← List.append_nil (below.map _)] at due
      rcases due.cons_of_entered rfl entered with ⟨rfl, -⟩ | ⟨after, rfl, inGroup⟩ | later
      · exact .inl ⟨_, List.mem_cons_self, rfl⟩
      · rcases ih inGroup with ⟨showing, mem, same⟩ | ⟨-, before⟩
        · exact .inl ⟨_, List.mem_cons_of_mem _ (List.mem_map_of_mem mem), by rw [Showing.position_under, same]⟩
        · refine .inr ⟨by simpa using ended, ?_⟩
          rw [List.forall_mem_cons, List.forall_mem_map]
          exact ⟨(inGroup.fromPlace goesIn.fromPlace).inside _,
            fun showing mem => under_lt_under _ (before showing mem)⟩
      · have behind := (later.fromPlace (by simp)).behind
        refine .inr ⟨by simpa using ended, ?_⟩
        rw [List.forall_mem_cons, List.forall_mem_map]
        exact ⟨behind [], fun showing _ => behind showing.position⟩
  | enters entered goesIn ended goesOn ihIn ihOn =>
      intro position s k n due
      rcases due.cons_of_entered rfl entered with ⟨rfl, -⟩ | ⟨after, rfl, inGroup⟩ | later
      · exact .inl ⟨_, List.mem_cons_self, rfl⟩
      · rcases ihIn inGroup with ⟨showing, mem, same⟩ | ⟨notEnded, -⟩
        · refine .inl ⟨showing.under _, List.mem_cons_of_mem _ ?_, by rw [Showing.position_under, same]⟩
          exact List.mem_append_left _ (List.mem_map_of_mem mem)
        · exact absurd ended (notEnded _ rfl)
      · rcases ihOn later with ⟨showing, mem, same⟩ | ⟨notEnded, before⟩
        · exact .inl ⟨showing, List.mem_cons_of_mem _ (List.mem_append_right _ mem), same⟩
        · have behind := (later.fromPlace goesOn.fromPlace).behind
          refine .inr ⟨by simpa [Walked.prepend] using notEnded, ?_⟩
          rw [List.forall_mem_cons, List.forall_mem_append, List.forall_mem_map]
          exact ⟨behind [], fun showing _ => behind showing.position, before⟩

end Coverage

/-!
### What a walk leaves
-/

/-- The unit at a position, in a row whose first child has this place. -/
def Children.at? (position : List Nat) : Nat → Children → Option Node
  | _, .nil => none
  | place, .cons _ node rest =>
    match position with
    | [] => none
    | first :: below => if first = place then node.at? below else rest.at? position (place + 1)

section At

variable {place first : Nat} {below : List Nat} {key : String} {node : Node} {rest children : Children}

theorem Children.at?_head : (Children.cons key node rest).at? (place :: below) place = node.at? below := by
  rw [Children.at?, if_pos rfl]

theorem Children.at?_rest (behind : place < first) :
    (Children.cons key node rest).at? (first :: below) place = rest.at? (first :: below) (place + 1) := by
  rw [Children.at?, if_neg (Nat.ne_of_gt behind)]

/-- Places are counted from that of the first child. -/
theorem Children.at?_place_add (nth : Nat) :
    children.at? ((place + nth) :: below) place = children.toList[nth]?.bind fun entry => entry.2.at? below := by
  induction children generalizing place nth with
  | nil => rfl
  | cons key node rest ih =>
      cases nth with
      | zero => exact Children.at?_head
      | succ nth =>
          rw [Children.at?_rest (by omega), ← Nat.add_assoc, Nat.add_right_comm, ih]
          rfl

theorem Node.at?_group (attributes : Attributes) (children : Children) (first : Nat) (below : List Nat) :
    (Node.group attributes children).at? (first :: below) = children.at? (first :: below) 0 := by
  have counted : children.at? ((0 + first) :: below) 0 = _ := Children.at?_place_add first
  rw [Nat.zero_add] at counted
  rw [counted, Node.at?]

/-- What stands behind the first child is looked up in the rest of the row. -/
theorem StandsFrom.at?_rest {position : List Nat} (stands : StandsFrom (place + 1) position) :
    (Children.cons key node rest).at? position place = rest.at? position (place + 1) := by
  obtain ⟨first, below, rfl, behind⟩ := stands
  exact Children.at?_rest behind

/-- What stands in the group of the first child is looked up there. -/
theorem StandsFrom.at?_inside {position : List Nat} {attributes : Attributes} (stands : StandsFrom 0 position) :
    (Children.cons key (.group attributes children) rest).at? (place :: position) place =
      children.at? position 0 := by
  obtain ⟨first, below, rfl, -⟩ := stands
  rw [Children.at?_head, Node.at?_group]

theorem Group.at?_eq (group : Group) (position : List Nat) : group.at? position = group.children.at? position 0 := by
  cases position with
  | nil => cases group.children <;> rfl
  | cons first below => exact Node.at?_group group.attributes group.children first below

end At

/-- This unit is left where the visitor has given this answer: the group that the walk has gone into, with its own
attributes and keys, or else the unit that was put back. -/
def Visit.Leaves (visit : Visit σ S ε) (left : Node) : Prop :=
  match visit.entered? with
  | some (_, attributes, row) => ∃ children, left = .group attributes children ∧ children.keys = row.keys
  | none => left = visit.node

theorem Visit.leaves_of_not_entered {visit : Visit σ S ε} (notEntered : visit.entered? = none) :
    visit.Leaves visit.node := by
  rw [Visit.Leaves, notEntered]

theorem Visit.leaves_of_entered {visit : Visit σ S ε} {inner : S} {attributes : Attributes} {row children : Children}
    (entered : visit.entered? = some (inner, attributes, row)) (keys : children.keys = row.keys) :
    visit.Leaves (.group attributes children) := by
  rw [Visit.Leaves, entered]
  exact ⟨children, rfl, keys⟩

section Left

variable {visitor : Visitor σ S ε} {rows place : Nat} {scope : S} {children : Children} {state : σ}
  {showings : List (Showing σ S)} {outcome : Option (Walked σ ε)}

/-- Without showings, each child that the walk has to come to is one of the row. -/
theorem Children.Due.at?_of_nil {position : List Nat} {s : S} {k : String} {n : Node}
    (due : Children.Due visitor scope place children [] position s k n) : children.at? position place = some n := by
  cases due with
  | outermost there =>
      rw [Children.at?_place_add, there, Option.bind_some, Node.at?]
  | below mem entered there => simp at mem

/-- The keys of a row stay as they are. -/
theorem Children.Walks.keys (walks : Children.Walks visitor rows scope place children state showings outcome) :
    ∀ walked ∈ outcome, walked.children.keys = children.keys := by
  induction walks with
  | exhausted => simp
  | nil => simp
  | fails failed => simp [Children.keys]
  | passes answered notEntered goesOn ih => simpa [Walked.prepend, Children.keys] using ih
  | stops entered goesIn ended ih => simp [Children.keys]
  | enters entered goesIn ended goesOn ihIn ihOn => simpa [Walked.prepend, Children.keys] using ihOn

/-- Where a unit was shown, there stands what the visitor has put back, with its children walked if the walk has gone
into it. -/
theorem Children.Walks.left (walks : Children.Walks visitor rows scope place children state showings outcome) :
    ∀ walked ∈ outcome, ∀ showing ∈ showings,
      ∃ left, walked.children.at? showing.position place = some left ∧ (showing.visit visitor).Leaves left := by
  induction walks with
  | exhausted => simp
  | nil => simp
  | fails failed =>
      rintro _ ⟨⟩
      rw [List.forall_mem_singleton]
      exact ⟨_, Children.at?_head, Visit.leaves_of_not_entered (Visit.entered?_of_error failed)⟩
  | passes answered notEntered goesOn ih =>
      intro _ mem
      obtain ⟨walked, ends, rfl⟩ := Option.map_eq_some_iff.mp mem
      rw [List.forall_mem_cons]
      refine ⟨⟨_, Children.at?_head, Visit.leaves_of_not_entered notEntered⟩, ?_⟩
      intro showing mem
      rw [Walked.prepend, (goesOn.fromPlace showing mem).at?_rest]
      exact ih walked ends showing mem
  | stops entered goesIn ended ih =>
      intro _ mem
      obtain ⟨walked, ends, rfl⟩ := Option.map_eq_some_iff.mp mem
      rw [List.forall_mem_cons, List.forall_mem_map]
      refine ⟨⟨_, Children.at?_head, Visit.leaves_of_entered entered (goesIn.keys walked ends)⟩, ?_⟩
      intro showing mem
      rw [Showing.position_under, (goesIn.fromPlace showing mem).at?_inside]
      exact ih walked ends showing mem
  | enters entered goesIn ended goesOn ihIn ihOn =>
      intro _ mem
      obtain ⟨last, ends, rfl⟩ := Option.map_eq_some_iff.mp mem
      rw [List.forall_mem_cons, List.forall_mem_append, List.forall_mem_map]
      refine ⟨⟨_, Children.at?_head, Visit.leaves_of_entered entered (goesIn.keys _ rfl)⟩, ?_, ?_⟩
      · intro showing mem
        rw [Walked.prepend, Showing.position_under, (goesIn.fromPlace showing mem).at?_inside]
        exact ihIn _ rfl showing mem
      · intro showing mem
        rw [Walked.prepend, (goesOn.fromPlace showing mem).at?_rest]
        exact ihOn last ends showing mem

/-- What the walk has not come to stands where it stood. -/
theorem Children.Walks.unshown (walks : Children.Walks visitor rows scope place children state showings outcome) :
    ∀ walked ∈ outcome, ∀ {position : List Nat} {s : S} {k : String} {n : Node},
      Children.Due visitor scope place children showings position s k n →
        (∀ showing ∈ showings, showing.position ≠ position) → walked.children.at? position place = some n := by
  induction walks with
  | exhausted => simp
  | nil =>
      intro walked ends position s k n due
      cases due with
      | outermost there => simp [Children.toList] at there
      | below mem entered there => simp at mem
  | fails failed =>
      rintro _ ⟨⟩ position s k n due other
      rcases due.cons_of_not_entered (Visit.entered?_of_error failed) with ⟨rfl, -⟩ | later
      · exact absurd rfl (other _ List.mem_cons_self)
      · rw [(later.fromPlace (by simp)).at?_rest, later.at?_of_nil]
  | passes answered notEntered goesOn ih =>
      intro _ mem position s k n due other
      obtain ⟨walked, ends, rfl⟩ := Option.map_eq_some_iff.mp mem
      rw [List.forall_mem_cons] at other
      rcases due.cons_of_not_entered notEntered with ⟨rfl, -⟩ | later
      · exact absurd rfl other.1
      · rw [Walked.prepend, (later.fromPlace goesOn.fromPlace).at?_rest, ih walked ends later other.2]
  | @stops _ _ _ _ _ _ _ _ _ _ below _ entered goesIn ended ih =>
      intro _ mem position s k n due other
      obtain ⟨walked, ends, rfl⟩ := Option.map_eq_some_iff.mp mem
      rw [List.forall_mem_cons, List.forall_mem_map] at other
      rw [← List.append_nil (below.map _)] at due
      rcases due.cons_of_entered rfl entered with ⟨rfl, -⟩ | ⟨after, rfl, inGroup⟩ | later
      · exact absurd rfl other.1
      · have otherBelow : ∀ showing ∈ below, showing.position ≠ after :=
          fun showing mem same => other.2 showing mem (congrArg _ same)
        rw [(inGroup.fromPlace goesIn.fromPlace).at?_inside, ih walked ends inGroup otherBelow]
      · rw [(later.fromPlace (by simp)).at?_rest, later.at?_of_nil]
  | @enters _ _ _ _ _ _ _ _ _ _ below _ _ _ entered goesIn ended goesOn ihIn ihOn =>
      intro _ mem position s k n due other
      obtain ⟨last, ends, rfl⟩ := Option.map_eq_some_iff.mp mem
      rw [List.forall_mem_cons, List.forall_mem_append, List.forall_mem_map] at other
      rcases due.cons_of_entered rfl entered with ⟨rfl, -⟩ | ⟨after, rfl, inGroup⟩ | later
      · exact absurd rfl other.1
      · have otherBelow : ∀ showing ∈ below, showing.position ≠ after :=
          fun showing mem same => other.2.1 showing mem (congrArg _ same)
        rw [Walked.prepend, (inGroup.fromPlace goesIn.fromPlace).at?_inside, ihIn _ rfl inGroup otherBelow]
      · rw [Walked.prepend, (later.fromPlace goesOn.fromPlace).at?_rest, ihOn last ends later other.2.2]

/-- A walk without an outcome has gone down as far as it may. -/
theorem Children.Walks.cutOff (walks : Children.Walks visitor rows scope place children state showings outcome)
    (none : outcome = none) :
    (rows = 0 ∧ showings = []) ∨ ∃ last, showings.getLast? = some last ∧ last.position.length = rows ∧
      ((last.visit visitor).entered?).isSome := by
  induction walks with
  | exhausted => exact .inl ⟨rfl, rfl⟩
  | nil => simp at none
  | fails failed => simp at none
  | passes answered notEntered goesOn ih =>
      rcases ih (by simpa using none) with ⟨noRows, -⟩ | ⟨last, isLast, deep, enters⟩
      · simp at noRows
      · exact .inr ⟨last, by simp [List.getLast?_cons, isLast], deep, enters⟩
  | @stops _ _ place _ _ _ _ _ _ _ _ _ entered goesIn ended ih =>
      right
      rcases ih (by simpa using none) with ⟨rfl, rfl⟩ | ⟨last, isLast, deep, enters⟩
      · exact ⟨_, rfl, rfl, by simp [entered]⟩
      · exact ⟨last.under place, by simp [List.getLast?_cons, isLast], by simp [deep], enters⟩
  | enters entered goesIn ended goesOn ihIn ihOn =>
      rcases ihOn (by simpa using none) with ⟨noRows, -⟩ | ⟨last, isLast, deep, enters⟩
      · simp at noRows
      · exact .inr ⟨last, by simp [List.getLast?_cons, isLast], deep, enters⟩

end Left

/-!
### Any walk of a group
-/

/-- These are showings of a walk of the group's children with this scope, from the first one on, and `final` is the
visitor's own state after the last of them. -/
structure Visitor.Traverses (visitor : Visitor σ S ε) (scope : S) (state : σ) (group : Group)
    (showings : List (Showing σ S)) (final : σ) : Prop where
  /-- Siblings are shown from left to right, and what is in a group right after the group. -/
  inOrder : showings.Pairwise fun earlier later => earlier.position < later.position
  /-- Each unit shown is one that the walk has to come to, with its key and with the scope of its row. -/
  due : ∀ showing ∈ showings, Children.Due visitor scope 0 group.children showings
    showing.position showing.scope showing.key showing.node
  /-- What the walk has to come to is shown, or else it stands behind all that is shown. -/
  noGap : ∀ position inner key node, Children.Due visitor scope 0 group.children showings position inner key node →
    (∃ showing ∈ showings, showing.position = position) ∨ ∀ showing ∈ showings, showing.position < position
  /-- The visitor's own state goes from each visit to the next. -/
  threaded : showings.map Showing.state ++ [final] = state :: showings.map fun showing => (showing.visit visitor).state
  /-- Nothing is shown after a failure. -/
  stopsAtFailure : showings.Pairwise fun earlier _ => ∀ failure, (earlier.visit visitor).next ≠ .error failure

/-- A walk with these showings ends like this. -/
structure Visitor.EndsWith (visitor : Visitor σ S ε) (scope : S) (group : Group) (showings : List (Showing σ S))
    (walked : Walked σ ε) : Prop where
  /-- The walk fails with the failure of a visit and with no other. -/
  failed : ∀ failure, walked.result = .error failure ↔
    ∃ showing ∈ showings, (showing.visit visitor).next = .error failure
  /-- A walk that does not fail shows all that it has to come to. -/
  complete : walked.result = .ok () → ∀ position inner key node,
    Children.Due visitor scope 0 group.children showings position inner key node →
      ∃ showing ∈ showings, showing.position = position
  /-- The group that is walked keeps its keys in their places. -/
  keys : walked.children.keys = group.children.keys
  /-- Where a unit was shown, there stands what the visitor has put back. If the walk has gone into it, it still has the
  attributes and the keys with which it was put back. -/
  shown : ∀ showing ∈ showings, ∃ left,
    ({ group with children := walked.children } : Group).at? showing.position = some left ∧
      (showing.visit visitor).Leaves left
  /-- What was not shown is unchanged. -/
  unshown : ∀ position inner key node,
    Children.Due visitor scope 0 group.children showings position inner key node →
      (∀ showing ∈ showings, showing.position ≠ position) →
        ({ group with children := walked.children } : Group).at? position = some node

/-- A walk goes through a tree in pre-order from left to right, whatever the visitor is and whatever it puts back: it
goes into a unit exactly if the visitor has given a scope and has put back a group, and then with that scope. Where it
fails, it has changed nothing behind the failing visit. It has an answer unless the visitor makes it go down further
than it may; the answer does not depend on how far it may go, and `Group.walk` gives it for visitors that keep
depths. -/
theorem Group.walk?_preorder (visitor : Visitor σ S ε) (rows : Nat) (scope : S) (state : σ) (group : Group) :
    ∃ showings final, visitor.Traverses scope state group showings final ∧
      (∀ walked, group.children.walk? visitor rows scope state = some walked →
        walked.state = final ∧ visitor.EndsWith scope group showings walked ∧
          ∀ more, rows ≤ more → group.children.walk? visitor more scope state = some walked) ∧
      (group.children.walk? visitor rows scope state = none →
        (∀ showing ∈ showings, ∀ failure, (showing.visit visitor).next ≠ .error failure) ∧
          ((rows = 0 ∧ showings = []) ∨ ∃ last, showings.getLast? = some last ∧ last.position.length = rows ∧
            ((last.visit visitor).entered?).isSome)) ∧
      (visitor.KeepsDepth → group.children.depth < rows →
        group.children.walk? visitor rows scope state = some (group.walk visitor scope state)) := by
  obtain ⟨showings, walks⟩ := Children.exists_showings visitor rows scope 0 group.children state
  obtain ⟨final, threaded, last⟩ := walks.threaded
  refine ⟨showings, final, ?_, ?_, ?_, ?_⟩
  · exact
      { inOrder := walks.inOrder
        due := walks.due
        noGap := fun _ _ _ _ due => (walks.shown_or_behind due).imp_right And.right
        threaded := threaded
        stopsAtFailure := walks.stopsAtFailure }
  · intro walked ends
    rw [ends] at walks last
    refine ⟨last walked rfl, ?_, fun more le => Children.walk?_mono le ends⟩
    exact
      { failed := fun failure => by simpa using walks.failed_iff failure
        complete := fun ok _ _ _ _ due =>
          (walks.shown_or_behind due).resolve_right fun behind => behind.1 walked rfl ok
        keys := walks.keys walked rfl
        shown := fun showing mem => by
          rw [Group.at?_eq]
          exact walks.left walked rfl showing mem
        unshown := fun _ _ _ _ due other => by
          rw [Group.at?_eq]
          exact walks.unshown walked rfl due other }
  · intro none
    refine ⟨?_, walks.cutOff none⟩
    intro showing mem failure failed
    obtain ⟨walked, ends, -⟩ := (walks.failed_iff failure).mpr ⟨showing, mem, failed⟩
    rw [none] at ends
    simp at ends
  · intro keeps deep
    exact Children.walk?_eq_some_walk keeps deep scope state

/-- A visitor that notes keys with their depths goes past one group and grows another one before it is entered. -/
example :
    let grown : Children := .cons "new" .placeholder .nil
    let visitor : Visitor (List (String × Nat)) Nat Unit := fun key node depth noted =>
      ⟨noted ++ [(key, depth)], if key = "a" then .group {} grown else node,
        .ok (if key = "skip" then none else some (depth + 1))⟩
    let row : Children :=
      .cons "a" .placeholder <| .cons "skip" (.group {} (.cons "hidden" .placeholder .nil)) <|
        .cons "c" .placeholder .nil
    (row.walk? visitor 2 0 []).map Walked.state = some [("a", 0), ("new", 1), ("skip", 0), ("c", 0)] := by decide

end ShellUnits
