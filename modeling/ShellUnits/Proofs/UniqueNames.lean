import Mathlib.Data.List.Nodup
import ShellUnits.Proofs.Lines
import ShellUnits.Proofs.Locations

/-!
Names that can be told apart.

A name joins the keys on the way to a unit. Where no key is empty and none holds the separator, the keys can be read
off the name again, and since no row has a key twice, no two units have the same keys on the way to them. So no two
functions have the same name, also where references have put in copies: the keys in a copy are keys of the raw tree.

Main statement: `compile_names_unique`.
-/

namespace ShellUnits

/-!
### Units by their keys
-/

/-- The keys of the steps that lead from the root to the unit. -/
def Location.keys (location : Location) : List String :=
  location.trail.map Prod.fst

mutual

theorem Node.functions_eq_filterMap (above : Trail) (key : String) :
    ∀ node : Node, node.functions = (node.locations above key).filterMap fun location => location.node.function?
  | .group attributes children => by
      rw [Node.functions, Node.locations, List.filterMap_cons, Node.function?,
        Children.functions_eq_filterMap _ children]
      cases Function.ofAttributes? attributes <;> rfl
  | .command _ => rfl
  | .placeholder => rfl
  | .reference _ => rfl

/-- The functions of a row are those of the units at its locations. -/
theorem Children.functions_eq_filterMap (above : Trail) :
    ∀ children : Children,
      children.functions = (children.locations above).filterMap fun location => location.node.function?
  | .nil => rfl
  | .cons key node rest => by
      rw [Children.functions, Children.locations, List.filterMap_append, Node.functions_eq_filterMap above key node,
        Children.functions_eq_filterMap above rest]

end

mutual

theorem Node.follow_of_mem_locations {above : Trail} {key : String} {location : Location} :
    ∀ {node : Node}, node.WellKeyed → location ∈ node.locations above key →
      ∃ rest, location.keys = above.map Prod.fst ++ key :: rest ∧ node.follow rest = some location.node
  | .group attributes children, wellKeyed, mem => by
      rcases List.mem_cons.mp mem with rfl | below
      · exact ⟨[], by simp [Location.keys, Location.trail], rfl⟩
      · obtain ⟨next, node, rest, keys, there, follows⟩ := Children.follow_of_mem_locations wellKeyed below
        refine ⟨next :: rest, by simp [keys], ?_⟩
        rw [Node.follow, there, Option.bind_some, follows]
  | .command _, _, mem => by
      obtain rfl := List.mem_singleton.mp mem
      exact ⟨[], by simp [Location.keys, Location.trail], rfl⟩
  | .placeholder, _, mem => by
      obtain rfl := List.mem_singleton.mp mem
      exact ⟨[], by simp [Location.keys, Location.trail], rfl⟩
  | .reference _, _, mem => by
      obtain rfl := List.mem_singleton.mp mem
      exact ⟨[], by simp [Location.keys, Location.trail], rfl⟩

/-- The keys of a location start with those of the steps around the row, go on with a key of the row, and lead from
there to the unit. -/
theorem Children.follow_of_mem_locations {above : Trail} {location : Location} :
    ∀ {children : Children}, children.WellKeyed → location ∈ children.locations above →
      ∃ key node rest, location.keys = above.map Prod.fst ++ key :: rest ∧ children.get? key = some node ∧
        node.follow rest = some location.node
  | .cons key node others, ⟨fresh, below, after⟩, mem => by
      rcases List.mem_append.mp mem with first | later
      · obtain ⟨rest, keys, follows⟩ := Node.follow_of_mem_locations below first
        exact ⟨key, node, rest, keys, by rw [Children.get?, if_pos rfl], follows⟩
      · obtain ⟨next, found, rest, keys, there, follows⟩ := Children.follow_of_mem_locations after later
        have elsewhere : key ≠ next := by
          rintro rfl
          exact fresh (Children.mem_keys_of_get? there)
        exact ⟨next, found, rest, keys, by rw [Children.get?, if_neg elsewhere, there], follows⟩

end

/-- A unit is addressed by the keys of its location. -/
theorem Group.get?_of_mem_locations {group : Group} (wellKeyed : group.children.WellKeyed) {location : Location}
    (mem : location ∈ group.locations) : group.get? location.keys = some location.node := by
  obtain ⟨key, node, rest, keys, there, follows⟩ := Children.follow_of_mem_locations wellKeyed mem
  rw [keys, List.map_nil, List.nil_append, Group.get?_cons, there, Option.bind_some, follows]

mutual

theorem Node.nodup_locations (above : Trail) (key : String) :
    ∀ {node : Node}, node.WellKeyed → ((node.locations above key).map Location.keys).Nodup
  | .group attributes children, wellKeyed => by
      rw [Node.locations, List.map_cons, List.nodup_cons]
      refine ⟨?_, Children.nodup_locations _ wellKeyed⟩
      -- What lies below the group has one key more.
      intro mem
      obtain ⟨location, below, same⟩ := List.mem_map.mp mem
      obtain ⟨next, _, rest, keys, -, -⟩ := Children.follow_of_mem_locations wellKeyed below
      rw [keys] at same
      simp [Location.keys, Location.trail] at same
  | .command _, _ => List.nodup_singleton _
  | .placeholder, _ => List.nodup_singleton _
  | .reference _, _ => List.nodup_singleton _

/-- No two locations have the same keys. -/
theorem Children.nodup_locations (above : Trail) :
    ∀ {children : Children}, children.WellKeyed → ((children.locations above).map Location.keys).Nodup
  | .nil, _ => List.nodup_nil
  | .cons key node others, ⟨fresh, below, after⟩ => by
      rw [Children.locations, List.map_append]
      apply List.Nodup.append (Node.nodup_locations above key below) (Children.nodup_locations above after)
      apply List.disjoint_left.mpr
      intro keys inNode inOthers
      obtain ⟨location, first, rfl⟩ := List.mem_map.mp inNode
      obtain ⟨other, later, same⟩ := List.mem_map.mp inOthers
      obtain ⟨rest, keys, -⟩ := Node.follow_of_mem_locations below first
      obtain ⟨next, _, otherRest, otherKeys, there, -⟩ := Children.follow_of_mem_locations after later
      rw [keys, otherKeys] at same
      have sameKey : next = key := (List.cons.inj (List.append_cancel_left same)).1
      exact fresh (sameKey ▸ Children.mem_keys_of_get? there)

end

/-!
### Keys that can be read off a name
-/

namespace Separator

/-- The character that the separator is. -/
def char : Separator → Char
  | dot => '.'
  | dash => '-'
  | colon => ':'

theorem toList_text (separator : Separator) : separator.text.toList = [separator.char] := by
  cases separator <;> rfl

/-- The keys that a name is cut into at the separator. -/
def split (separator : Separator) (name : String) : List String :=
  (Text.pieces separator.char name.toList).map String.ofList

/-- The key is not empty and does not hold the separator. -/
def IsPlain (separator : Separator) (key : String) : Prop :=
  key ≠ "" ∧ separator.char ∉ key.toList

instance (separator : Separator) (key : String) : Decidable (separator.IsPlain key) :=
  inferInstanceAs (Decidable (_ ∧ _))

theorem split_intercalate (separator : Separator) {keys : List String}
    (plain : ∀ key ∈ keys, separator.IsPlain key) (notEmpty : keys ≠ []) :
    separator.split (separator.text.intercalate keys) = keys := by
  rw [split, String.toList_intercalate, toList_text]
  apply Text.pieces_intercalate _ notEmpty
  intro key mem
  exact (plain key mem).2

end Separator

/-- The name of a location is cut into the keys of the location. -/
theorem Location.split_name {separator : Separator} {location : Location}
    (plain : ∀ key ∈ location.keys, separator.IsPlain key) (root : Option String) :
    separator.split (location.function separator root).name = location.keys := by
  have notEmpty : location.keys ≠ [] := by simp [Location.keys, Location.trail]
  have noneDropped : location.keys.dropWhile (· = "") = location.keys := by
    cases keys : location.keys with
    | nil => rfl
    | cons key rest =>
        rw [keys] at plain
        apply List.dropWhile_cons_of_neg
        simpa using (plain key List.mem_cons_self).1
  have name : (location.function separator root).name = separator.text.intercalate location.keys := by
    rw [Location.function, Trail.name, ← Location.keys, noneDropped]
  rw [name, separator.split_intercalate plain notEmpty]

/-!
### The units of a processed document
-/

section Processed

variable {document : Document} {separator : Separator}

/-- Deriving a processed tree changes nothing, so its own locations say what its functions are. -/
theorem Document.functions_processed_locations (separator : Separator) (document : Document) :
    (document.processed separator).units.functions =
      (document.processed separator).units.locations.map
        (Location.function separator document.units.attributes.directory) := by
  have functions := Children.functions_derive separator document.units.attributes.directory []
    (document.processed separator).units.children
  have derived : (document.processed separator).units.children.derive separator
      (nonEmpty document.units.attributes.directory) none = (document.processed separator).units.children :=
    Children.derive_derive separator _ none document.units.expand.children
  rw [Trail.directory_nil, Trail.groupName, if_pos rfl, derived] at functions
  exact functions

/-- At each location stands a group with the function of the location. -/
theorem Document.function?_of_mem_locations {location : Location}
    (mem : location ∈ (document.processed separator).units.locations) :
    location.node.function? = some (location.function separator document.units.attributes.directory) := by
  have listed := Document.functions_processed_locations separator document
  rw [Group.functions, Children.functions_eq_filterMap [], Group.locations,
    List.filterMap_eq_map_iff_forall_eq_some] at listed
  exact listed location mem

theorem Document.wellKeyed_processed (wellKeyed : document.units.children.WellKeyed) :
    (document.processed separator).units.children.WellKeyed :=
  (Children.WellKeyed.expand wellKeyed wellKeyed).derive separator _ none

theorem Document.keys_processed {allowed : String → Prop}
    (everywhere : document.units.children.Everywhere fun key _ => allowed key) :
    (document.processed separator).units.children.Everywhere fun key _ => allowed key :=
  Children.keys_derive separator _ none (Children.keys_expand everywhere everywhere)

/-- The keys on the way to a unit are keys of the raw tree, so the name of the unit is cut into them. -/
theorem Document.split_name_processed (wellKeyed : document.units.children.WellKeyed)
    (plain : document.units.children.Everywhere fun key _ => separator.IsPlain key) {location : Location}
    (mem : location ∈ (document.processed separator).units.locations) :
    separator.split (location.function separator document.units.attributes.directory).name = location.keys := by
  have addressed := Group.get?_of_mem_locations (Document.wellKeyed_processed wellKeyed) mem
  apply Location.split_name
  exact Group.allowed_of_get? (Document.keys_processed plain) addressed

/-- The names in their order are cut into the keys of the units in pre-order. -/
theorem Document.map_split_name_processed (wellKeyed : document.units.children.WellKeyed)
    (plain : document.units.children.Everywhere fun key _ => separator.IsPlain key) :
    (document.processed separator).units.functions.map (fun function => separator.split function.name) =
      (document.processed separator).units.locations.map Location.keys := by
  rw [Document.functions_processed_locations, List.map_map]
  apply List.map_congr_left
  intro location mem
  exact Document.split_name_processed wellKeyed plain mem

end Processed

/-- Where no key of a document is empty or holds the chosen separator, no two functions have the same name. A name is
cut at the separator into the keys of the unit that it names: these address that unit in the processed tree, and the
names in their order give the keys of all its units in pre-order. -/
theorem compile_names_unique {document : Document} {functions : List Function}
    (wellKeyed : document.units.children.WellKeyed) (compiles : (compile document).result = .ok functions)
    {separator : Separator} (chosen : document.options.normalize.result = .ok separator)
    (plain : document.units.children.Everywhere fun key _ => separator.IsPlain key) :
    (functions.map Function.name).Nodup ∧
      functions.map (fun function => separator.split function.name) =
        (compile document).left.units.locations.map Location.keys ∧
      ∀ function ∈ functions, ∃ node,
        (compile document).left.units.get? (separator.split function.name) = some node ∧
          node.function? = some function := by
  obtain ⟨other, ok, resolves, rfl⟩ := compile_eq_ok_iff.mp compiles
  obtain rfl : other = separator := Except.ok.inj (ok.symm.trans chosen)
  rw [(compile_of_resolved ok resolves).1]
  have wellKeyedToo : (document.processed other).units.children.WellKeyed :=
    Document.wellKeyed_processed wellKeyed
  have keys := Document.map_split_name_processed wellKeyed plain
  refine ⟨?_, keys, ?_⟩
  · have distinct : ((document.processed other).units.locations.map Location.keys).Nodup :=
      Children.nodup_locations [] wellKeyedToo
    rw [← keys] at distinct
    -- Names that were equal would be cut into the same keys.
    apply List.Nodup.of_map other.split
    rwa [List.map_map]
  · intro function mem
    rw [Document.functions_processed_locations] at mem
    obtain ⟨location, among, rfl⟩ := List.mem_map.mp mem
    rw [Document.split_name_processed wellKeyed plain among]
    exact ⟨location.node, Group.get?_of_mem_locations wellKeyedToo among, Document.function?_of_mem_locations among⟩

/-- A key with a dot in it, in a document whose names are joined by dashes, and a reference to a group around it. -/
def Document.released : Document where
  options := [("sep", .string "-")]
  units :=
    { children :=
        .cons "all" (.group {} <| .cons "v1.0" (.command "make") <| .cons "again" (.reference ["all"]) .nil) <|
        .cons "latest" (.reference ["all"]) .nil }

/-- The references that come with copies have names of their own. -/
theorem compile_names_unique_released :
    ∃ functions, (compile .released).result = .ok functions ∧
      functions.map Function.name =
        ["all", "all-v1.0", "all-again", "all-again-v1.0", "all-again-again", "latest", "latest-v1.0",
          "latest-again"] ∧
      (functions.map Function.name).Nodup ∧
      functions.map (fun function => Separator.dash.split function.name) =
        [["all"], ["all", "v1.0"], ["all", "again"], ["all", "again", "v1.0"], ["all", "again", "again"],
          ["latest"], ["latest", "v1.0"], ["latest", "again"]] := by
  have compiles : (compile .released).result =
      .ok [⟨"all", none, none⟩, ⟨"all-v1.0", none, some "make"⟩, ⟨"all-again", none, none⟩,
        ⟨"all-again-v1.0", none, some "make"⟩, ⟨"all-again-again", none, some "$(all)"⟩,
        ⟨"latest", none, none⟩, ⟨"latest-v1.0", none, some "make"⟩, ⟨"latest-again", none, some "$(all)"⟩] := rfl
  have chosen : Document.released.options.normalize.result = .ok .dash := rfl
  have plain : Document.released.units.children.Everywhere fun key _ => Separator.dash.IsPlain key :=
    ⟨by decide, ⟨by decide, trivial, by decide, trivial, trivial⟩, by decide, trivial, trivial⟩
  obtain ⟨unique, split, -⟩ := compile_names_unique (by decide) compiles chosen plain
  exact ⟨_, compiles, rfl, unique, split⟩

/-- A key that holds the separator can make a name that another unit has. -/
example :
    let clashing : Children :=
      .cons "a-b" (.command "first") <| .cons "a" (.group {} <| .cons "b" (.command "second") .nil) .nil
    (compile { options := [("sep", .string "-")], units := { children := clashing } }).result =
      .ok [⟨"a-b", none, some "first"⟩, ⟨"a", none, none⟩, ⟨"a-b", none, some "second"⟩] := rfl

end ShellUnits
