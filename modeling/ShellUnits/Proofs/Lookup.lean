import ShellUnits.Lookup

/-!
Two ways to follow ids.

`Group.get?` follows keys and says only whether a unit is there; `Group.lookup` follows the ids of a
reference and accounts for the step that fails. They find the same units.

Trees that are related key by key have related units behind each path that leads somewhere in the first one.
What a group hands down to its children reaches each unit that can be addressed.

Main statements: `Group.lookup_eq_ok_iff`, `Group.get?_of_matches`, `Group.get?_of_handedDown`,
`Children.EachBy.get?`.
-/

namespace ShellUnits

/-- Follows keys from a unit; no keys lead to the unit itself. -/
def Node.follow : List String → Node → Option Node
  | [], node => some node
  | key :: rest, .group _ children => (children.get? key).bind (Node.follow rest)
  | _ :: _, _ => none

/-- A path is followed from the child that its first key leads to. -/
theorem Group.get?_cons (group : Group) (key : String) (rest : List String) :
    group.get? (key :: rest) = (group.children.get? key).bind (Node.follow rest) := by
  induction rest generalizing group key with
  | nil => cases h : group.children.get? key <;> simp [Group.get?, h, Node.follow]
  | cons next rest ih =>
      cases h : group.children.get? key with
      | none => simp [Group.get?, h]
      | some node =>
          cases node with
          | group attributes children => simp [Group.get?, h, Node.follow, ih ⟨attributes, children⟩ next]
          | command text => simp [Group.get?, h, Node.follow]
          | placeholder => simp [Group.get?, h, Node.follow]
          | reference ids => simp [Group.get?, h, Node.follow]

/-- A path is followed key by key. -/
theorem Node.follow_cons (node : Node) (key : String) (rest : List String) :
    node.follow (key :: rest) = (node.follow [key]).bind (Node.follow rest) := by
  cases node with
  | group attributes children => cases h : children.get? key <;> simp [Node.follow, h]
  | command text => rfl
  | placeholder => rfl
  | reference ids => rfl

theorem Node.follow_append (node : Node) (path more : List String) :
    node.follow (path ++ more) = (node.follow path).bind (Node.follow more) := by
  induction path generalizing node with
  | nil => rfl
  | cons key rest ih =>
      rw [List.cons_append, Node.follow_cons, Node.follow_cons node key rest, Option.bind_assoc]
      exact congrArg _ (funext ih)

/-- The account of a look-up goes on as long as the next key leads to a unit. -/
theorem lookupFrom_cons (ids : List String) (context : Node) (searched : List String) (id : String)
    (rest : List String) :
    lookupFrom ids context searched (id :: rest) =
      match context.follow [id] with
      | some node => lookupFrom ids node (searched ++ [id]) rest
      | none => .error (.unresolvedReference ids searched id context) := by
  cases context with
  | group attributes children => cases h : children.get? id <;> simp [lookupFrom, Node.follow, h]
  | command text => rfl
  | placeholder => rfl
  | reference inner => rfl

/-- The account of a look-up ends well exactly when the keys lead to a unit. -/
theorem lookupFrom_eq_ok_iff (ids : List String) {found : Node} :
    ∀ (rest : List String) (context : Node) (searched : List String),
      lookupFrom ids context searched rest = .ok found ↔ context.follow rest = some found
  | [], context, searched => by simp [lookupFrom, Node.follow]
  | id :: rest, context, searched => by
      rw [lookupFrom_cons, Node.follow_cons context id rest]
      cases context.follow [id] with
      | none => simp
      | some node => exact lookupFrom_eq_ok_iff ids rest node (searched ++ [id])

/-- The account of a look-up ends badly exactly when some keys lead to a unit and the next one does not lead on from
there. -/
theorem lookupFrom_eq_error_iff (ids : List String) {failure : CompileError} :
    ∀ (rest : List String) (context : Node) (searched : List String),
      lookupFrom ids context searched rest = .error failure ↔
        ∃ passed id after reached, rest = passed ++ id :: after ∧ context.follow passed = some reached ∧
          reached.follow [id] = none ∧ failure = .unresolvedReference ids (searched ++ passed) id reached
  | [], context, searched => by simp [lookupFrom]
  | id :: rest, context, searched => by
      rw [lookupFrom_cons]
      cases next : context.follow [id] with
      | none =>
          constructor
          · intro fails
            exact ⟨[], id, rest, context, rfl, rfl, next, by simpa using (Except.error.inj fails).symm⟩
          · rintro ⟨passed, missing, after, reached, split, follows, leadsOn, rfl⟩
            cases passed with
            | nil =>
                obtain ⟨rfl, rfl⟩ := List.cons.inj split
                obtain rfl := Option.some.inj follows
                rw [List.append_nil]
            | cons first passed =>
                obtain ⟨rfl, -⟩ := List.cons.inj split
                rw [Node.follow_cons, next] at follows
                simp at follows
      | some node =>
          simp only [lookupFrom_eq_error_iff ids rest node (searched ++ [id])]
          constructor
          · rintro ⟨passed, missing, after, reached, rfl, follows, leadsOn, rfl⟩
            refine ⟨id :: passed, missing, after, reached, rfl, ?_, leadsOn, by simp⟩
            rw [Node.follow_cons, next]
            exact follows
          · rintro ⟨passed, missing, after, reached, split, follows, leadsOn, rfl⟩
            cases passed with
            | nil =>
                obtain ⟨rfl, -⟩ := List.cons.inj split
                obtain rfl := Option.some.inj follows
                rw [next] at leadsOn
                simp at leadsOn
            | cons first passed =>
                obtain ⟨rfl, rfl⟩ := List.cons.inj split
                rw [Node.follow_cons, next] at follows
                exact ⟨passed, missing, after, reached, rfl, follows, leadsOn, by simp⟩

/-- With a first key, a path below a group is followed from the group itself. -/
theorem Group.get?_eq_follow (group : Group) {path : List String} (someKeys : path ≠ []) :
    group.get? path = group.toNode.follow path := by
  cases path with
  | nil => exact absurd rfl someKeys
  | cons key rest => exact group.get?_cons key rest

/-- A reference resolves to the unit that its ids address. -/
theorem Group.lookup_eq_ok_iff {root : Group} {ids : List String} {found : Node} :
    root.lookup ids = .ok found ↔ root.get? ids = some found := by
  by_cases someIds : ids = []
  · simp [Group.lookup, Group.get?, someIds]
  · rw [Group.lookup, if_neg someIds, Group.get?_eq_follow root someIds]
    exact lookupFrom_eq_ok_iff ids ids root.toNode []

/-- With ids to follow, the only failure is that a unit is missing on the way. -/
theorem Group.lookup_eq_error {root : Group} {ids : List String} {failure : CompileError} (someIds : ids ≠ [])
    (fails : root.lookup ids = .error failure) :
    ∃ searched id context, failure = .unresolvedReference ids searched id context := by
  rw [Group.lookup, if_neg someIds, lookupFrom_eq_error_iff] at fails
  obtain ⟨passed, id, -, reached, -, -, -, failed⟩ := fails
  exact ⟨_, id, reached, failed⟩

/-!
### Look-ups in related trees
-/

section Related

variable {related : Node → Node → Prop}

/-- Under each key of the first row, the second row has a related unit. -/
def Children.Matches (related : Node → Node → Prop) (children others : Children) : Prop :=
  ∀ key node, children.get? key = some node → ∃ other, others.get? key = some other ∧ related node other

/-- What is related to a group is a group with related units under all its keys. -/
def GoesDown (related : Node → Node → Prop) : Prop :=
  ∀ attributes children other, related (.group attributes children) other →
    ∃ otherAttributes others, other = .group otherAttributes others ∧ children.Matches related others

theorem Node.follow_of_goesDown (down : GoesDown related) {target : Node} :
    ∀ {path : List String} {node other : Node}, related node other → node.follow path = some target →
      ∃ found, other.follow path = some found ∧ related target found
  | [], _, other, relates, follows => ⟨other, rfl, Option.some.inj follows ▸ relates⟩
  | key :: rest, .group attributes children, other, relates, follows => by
      obtain ⟨otherAttributes, others, rfl, isMatch⟩ := down attributes children other relates
      obtain ⟨child, there, follows⟩ := Option.bind_eq_some_iff.mp follows
      obtain ⟨otherChild, thereToo, relates⟩ := isMatch key child there
      obtain ⟨found, followsToo, relates⟩ := Node.follow_of_goesDown down relates follows
      exact ⟨found, Option.bind_eq_some_iff.mpr ⟨otherChild, thereToo, followsToo⟩, relates⟩

/-- What a path addresses in one tree has something related behind the same path of the other tree. -/
theorem Group.get?_of_matches (down : GoesDown related) {group other : Group}
    (isMatch : group.children.Matches related other.children) {path : List String} {target : Node}
    (addressed : group.get? path = some target) : ∃ found, other.get? path = some found ∧ related target found := by
  cases path with
  | nil => simp [Group.get?] at addressed
  | cons key rest =>
      rw [Group.get?_cons] at addressed ⊢
      obtain ⟨child, there, follows⟩ := Option.bind_eq_some_iff.mp addressed
      obtain ⟨otherChild, thereToo, relates⟩ := isMatch key child there
      obtain ⟨found, followsToo, relates⟩ := Node.follow_of_goesDown down relates follows
      exact ⟨found, Option.bind_eq_some_iff.mpr ⟨otherChild, thereToo, followsToo⟩, relates⟩

end Related

/-- What a group hands down to each of its children holds of each unit that a path leads to. -/
theorem Group.get?_of_handedDown {holds : Node → Prop}
    (handsDown : ∀ attributes children key node,
      holds (.group attributes children) → children.get? key = some node → holds node)
    {group : Group} (below : ∀ key node, group.children.get? key = some node → holds node)
    {path : List String} {target : Node} (addressed : group.get? path = some target) : holds target := by
  have down : GoesDown fun node other => other = node ∧ holds node := by
    rintro attributes children _ ⟨rfl, here⟩
    exact ⟨attributes, children, rfl, fun key node there =>
      ⟨node, there, rfl, handsDown attributes children key node here there⟩⟩
  have isMatch : group.children.Matches (fun node other => other = node ∧ holds node) group.children :=
    fun key node there => ⟨node, there, rfl, below key node there⟩
  obtain ⟨-, -, -, reached⟩ := Group.get?_of_matches down isMatch addressed
  exact reached

/-!
### Passes that change each unit by itself
-/

/-- The pass keeps the keys of a row in their places and changes the unit under each key by itself. -/
structure Children.EachBy (pass : Children → Children) (change : String → Node → Node) : Prop where
  nil : pass .nil = .nil
  cons : ∀ key node rest, pass (.cons key node rest) = .cons key (change key node) (pass rest)

namespace Children.EachBy

variable {pass : Children → Children} {change : String → Node → Node}

theorem keys (each : EachBy pass change) (children : Children) : (pass children).keys = children.keys := by
  induction children with
  | nil => rw [each.nil]
  | cons key node rest ih => rw [each.cons, Children.keys, ih, Children.keys]

theorem get? (each : EachBy pass change) (key : String) (children : Children) :
    (pass children).get? key = (children.get? key).map (change key) := by
  induction children with
  | nil =>
      rw [each.nil]
      rfl
  | cons k node rest ih =>
      rw [each.cons, Children.get?, Children.get?]
      split
      · rename_i here
        rw [here, Option.map_some]
      · exact ih

end Children.EachBy

end ShellUnits
