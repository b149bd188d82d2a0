import ShellUnits.Keyed
import ShellUnits.Reference

/-!
The tree of units.

A unit is a group of further units, a shell command, a placeholder, or a reference to another unit. Only
groups have children. What the passes derive for a group (its qualified name, its working directory) is
kept in attributes of its own and never mixed with the children.

The children of a group are an ordered list of keyed units. They are a type of their own, declared
together with the units, so that every function on trees is a pair of structural recursions: one on units,
one on the siblings of a row. `Children.toList` is the view as a plain list.

Main definitions: `Attributes`, `Node`, `Children`, `Group`, `Group.get?`, `Node.summary`.
-/

namespace ShellUnits

/-- The fields of a group besides its children. -/
structure Attributes where
  /-- The directory override as written in the document. -/
  directory : Option String := none
  /-- The effective working directory, derived from the overrides on the way from the root. -/
  workingDirectory : Option String := none
  /-- The keys from the root joined by the separator, derived. -/
  qualifiedName : Option String := none
  /-- The shell command of the group itself. -/
  command : Option String := none
deriving DecidableEq, Repr, Inhabited

mutual

/-- A unit. -/
inductive Node where
  /-- A group of units. -/
  | group (attributes : Attributes) (children : Children)
  /-- A literal shell command. -/
  | command (text : String)
  /-- Explicitly no command. -/
  | placeholder
  /-- A path of keys from the root of the document to another unit. -/
  | reference (ids : List String)

/-- The units of a group, each under its key, in order. -/
inductive Children where
  | nil
  | cons (key : String) (node : Node) (rest : Children)

end

deriving instance DecidableEq, Repr for Node, Children

instance : Inhabited Node := ⟨.placeholder⟩
instance : Inhabited Children := ⟨.nil⟩

/-- A group of units. -/
structure Group where
  attributes : Attributes := {}
  children : Children := .nil
deriving DecidableEq, Repr, Inhabited

namespace Children

/-- Induction along a row, without going down into its units. -/
@[induction_eliminator]
theorem induction {motive : Children → Prop} (nil : motive .nil)
    (cons : ∀ key node rest, motive rest → motive (.cons key node rest)) : ∀ children, motive children
  | .nil => nil
  | .cons key node rest => cons key node rest (induction nil cons rest)

/-- The children as a plain list. -/
def toList : Children → List (String × Node)
  | .nil => []
  | .cons key node rest => (key, node) :: rest.toList

/-- The keys in order. -/
def keys : Children → List String
  | .nil => []
  | .cons key _ rest => key :: rest.keys

/-- The unit under this key. -/
def get? (key : String) : Children → Option Node
  | .nil => none
  | .cons k node rest => if k = key then some node else rest.get? key

/-- Replaces the unit under this key where it stands, or appends it. -/
def insert (key : String) (node : Node) : Children → Children
  | .nil => .cons key node .nil
  | .cons k n rest => if k = key then .cons k node rest else .cons k n (rest.insert key node)

/-- Takes the unit under this key out; the others keep their order. -/
def erase (key : String) : Children → Children
  | .nil => .nil
  | .cons k n rest => if k = key then rest else .cons k n (rest.erase key)

/-!
Seen as lists, children are a keyed list: finding and taking out a unit are the operations of keyed lists.
-/

theorem keys_eq_keys_toList : ∀ children : Children, children.keys = Keyed.keys children.toList
  | .nil => rfl
  | .cons key node rest => by simp [keys, toList, Keyed.keys, keys_eq_keys_toList rest]

theorem get?_eq_get?_toList (key : String) :
    ∀ children : Children, children.get? key = Keyed.get? key children.toList
  | .nil => rfl
  | .cons k node rest => by simp [get?, toList, Keyed.get?, get?_eq_get?_toList key rest]

theorem mem_keys_of_get? {key : String} {node : Node} {children : Children}
    (found : children.get? key = some node) : key ∈ children.keys := by
  rw [keys_eq_keys_toList, ← Keyed.get?_isSome_iff, ← get?_eq_get?_toList, found]
  rfl

theorem toList_erase (key : String) :
    ∀ children : Children, (children.erase key).toList = Keyed.erase key children.toList
  | .nil => rfl
  | .cons k n rest => by
    simp only [erase, toList, Keyed.erase]
    split
    · rfl
    · simp [toList, toList_erase key rest]

end Children

/-!
### Depth

The depth of a tree bounds how many rows of siblings lie below one another, and so how far a walk has to
go down.
-/

mutual

/-- How many rows of children lie below the unit. -/
def Node.depth : Node → Nat
  | .group _ children => children.depth + 1
  | .command _ => 0
  | .placeholder => 0
  | .reference _ => 0

/-- How many rows of children lie below this row. -/
def Children.depth : Children → Nat
  | .nil => 0
  | .cons _ node rest => max node.depth rest.depth

end

/-!
### Groups and units
-/

/-- The group that the unit is, if it is one. -/
def Node.asGroup? : Node → Option Group
  | .group attributes children => some ⟨attributes, children⟩
  | _ => none

namespace Group

/-- The group as a unit. -/
def toNode (group : Group) : Node :=
  .group group.attributes group.children

/-- Follows a path of keys. The empty path leads to no unit: the group itself is not below itself. -/
def get? (group : Group) : List String → Option Node
  | [] => none
  | [key] => group.children.get? key
  | key :: rest =>
    match group.children.get? key with
    | some (.group attributes children) => get? ⟨attributes, children⟩ rest
    | _ => none

/-- Changes the group that a path of keys leads to; `none` if the path leaves the groups. The empty path
    leads to the group itself. -/
def modifyAt? (f : Group → Group) : List String → Group → Option Group
  | [], group => some (f group)
  | key :: rest, group =>
    match group.children.get? key with
    | some (.group attributes children) =>
      (modifyAt? f rest ⟨attributes, children⟩).map fun below =>
        { group with children := group.children.insert key below.toNode }
    | _ => none

/-- A short description: the qualified name, if there is one, and the keys of the children. -/
def summary (group : Group) : String :=
  let units := ", ".intercalate group.children.keys
  match group.attributes.qualifiedName with
  | some name => s!"namespace `{name}` with units [{units}]"
  | none => s!"namespace with units [{units}]"

end Group

/-- A short description of a unit, as error texts show it. -/
def Node.summary : Node → String
  | .group attributes children => Group.summary ⟨attributes, children⟩
  | .command text => s!"command `{text}`"
  | .placeholder => "placeholder"
  | .reference ids => s!"reference `{formatReference ids}`"

/-!
### Reserved keys
-/

/-- The attribute that holds a group's qualified name in a document. -/
def qualifiedNameKey : String := "@qualifiedName"

/-- The attribute that holds a group's directory override in a document. -/
def workingDirectoryKey : String := "@workingDirectory"

/-- The attribute that holds a group's command in a document. -/
def commandKey : String := "@command"

/-- The attribute that holds a group's effective working directory in a document. -/
def effectiveWorkingDirectoryKey : String := "@effectiveWorkingDirectory"

/-- Whether a key is an attribute of the enclosing group and never a child. -/
def isReservedKey (key : String) : Bool :=
  key.toList.contains '@'

end ShellUnits
