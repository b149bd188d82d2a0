import ShellUnits.Yaml.Plain
import ShellUnits.Yaml.Tree

/-!
Reading YAML documents as values.

An alias is a copy of the tree that it stands for. Collections nest at most 128 deep, aliases included, and
there are at most a hundred times as many uses of aliases as there are parts of the document, so that
reading ends even where an alias lies inside its own anchor. A key must not be repeated.

Main definition: `Yaml.read?`.
-/

namespace ShellUnits.Yaml

/-- How deep collections may nest. -/
def depthLimit : Nat := 128

/-- What composing a value needs to know of the document. -/
structure Aliases where
  anchored : List Anchored
  /-- How many aliases may be followed. -/
  limit : Nat

/-- The tree with this number: among several the one that begins last. -/
def Aliases.tree? (aliases : Aliases) (number : Nat) : Option Tree :=
  let candidates := aliases.anchored.filter fun anchored => anchored.number == number
  let last := candidates.foldl (fun best anchored =>
    match best with
    | some (chosen : Anchored) => if chosen.place < anchored.place then some anchored else best
    | none => some anchored) none
  last.map Anchored.tree

/-- Composing counts the aliases that it has followed. -/
abbrev Composer := StateT Nat Option

/-- The name of a tag that is not one of the standard ones: without its exclamation mark. -/
def localTag? (tag : Option String) : Option String :=
  match tag with
  | none => none
  | some tag =>
    match tag.toList with
    | ['!'] => some "!"
    | '!' :: rest => some (tagName (String.ofList rest))
    | _ => none

/-- The value that a plain scalar denotes. -/
def plainValue? (text : List Char) : Option Value :=
  match plain text with
  | .value value => some value
  | .outOfRange => none
  | .string => some (.string (String.ofList text))

/-- The value that a scalar with a standard tag denotes. -/
def taggedScalar? (tag : String) (text : List Char) : Option Value :=
  if tag = "tag:yaml.org,2002:bool" then (bool? text).map .bool
  else if tag = "tag:yaml.org,2002:int" then
    (integer? text).bind fun n => if inRange n then some (.number (.integer n)) else none
  else if tag = "tag:yaml.org,2002:float" then (float? text).map fun x => .number (.float x)
  else if tag = "tag:yaml.org,2002:null" then
    if text ≠ [] && isNull text then some .null else none
  else some (.string (String.ofList text))

/-- The value of a scalar. `tagged` tells that its tag has been dealt with. -/
def scalarValue? (tagged : Bool) (tag : Option String) (text : List Char) (plain : Bool) : Option Value :=
  match tag, tagged with
  | some tag, false => taggedScalar? tag text
  | _, _ => if plain then plainValue? text else some (.string (String.ofList text))

/-- The entries of a mapping, whose keys must all differ. -/
def composeEntries (key value : Tree → Composer Value) : List (Tree × Tree) → Entries → Composer Entries
  | [], entries => return entries
  | (keyTree, valueTree) :: rest, entries => do
    let k ← key keyTree
    if (entries.find? fun other => other.same k).isSome then failure
    let v ← value valueTree
    composeEntries key value rest (entries.append (.cons k v .nil))

/-- The value of a tree that is no alias. `below?` composes the parts of collections, unless they nest too
    deep; `tagged` tells that the tag of the tree, or of the mapping that it is a key of, has been dealt
    with. -/
def composeTree (below? : Option (Bool → Tree → Composer Value)) (tagged : Bool) : Tree → Composer Value
  | .alias _ => failure
  | .scalar tag text plain =>
    match localTag? tag, tagged with
    | some name, false => do return .tagged name (← liftOption (scalarValue? true tag text plain))
    | _, _ => liftOption (scalarValue? tagged tag text plain)
  | .sequence tag items => do
    let below ← liftOption below?
    let value := Value.sequence (Items.ofList (← items.mapM (below false)))
    match localTag? tag, tagged with
    | some name, false => return .tagged name value
    | _, _ => return value
  | .mapping tag entries => do
    let below ← liftOption below?
    match localTag? tag, tagged with
    | some name, false =>
      return .tagged name (.mapping (← composeEntries (below true) (below false) entries .nil))
    | _, _ => return .mapping (← composeEntries (below tagged) (below false) entries .nil)
where
  liftOption {α : Type} (value : Option α) : Composer α := StateT.lift value

/-- The value of a tree below which collections may nest `depth` deep. -/
def compose (aliases : Aliases) : Nat → Bool → Tree → Composer Value
  | depth, tagged, tree =>
    let below? := match depth with
      | 0 => none
      | depth + 1 => some (compose aliases depth)
    match tree with
    | .alias number => do
      let used ← get
      if aliases.limit ≤ used then failure
      set (used + 1)
      match aliases.tree? number with
      | some target => composeTree below? false target
      | none => failure
    | tree => composeTree below? tagged tree

/-- The value that a document holds. -/
def read? (text : String) : Option Value := do
  let tokens ← tokens? text.toList
  let document ← parseDocument? tokens
  let aliases : Aliases := ⟨document.anchored, 100 * document.size⟩
  let (value, _) ← (compose aliases depthLimit false document.root).run 0
  return value

end ShellUnits.Yaml
