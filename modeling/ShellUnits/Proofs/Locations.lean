import Mathlib.Data.List.Induction
import ShellUnits.Proofs.Preorder
import ShellUnits.Proofs.Processing

/-!
The functions of a document, location by location.

A location of a tree is a unit below the root with the steps that lead to it. What function a location gets
is said here without any pass: its name joins the keys on the way, its directory joins the overrides on the
way, its command is read off the unit itself. Compiling lists the functions of the locations of the expanded
tree, in pre-order.

Main statement: `compile_eq_functions_of_locations`.
-/

namespace ShellUnits

/-!
### Locations
-/

/-- The steps that lead down from the root: each a key and the unit under it. -/
abbrev Trail := List (String × Node)

/-- A unit below the root, and the steps to the group that holds it. -/
structure Location where
  above : Trail
  key : String
  node : Node

/-- All steps from the root to the unit, its own included. -/
def Location.trail (location : Location) : Trail :=
  location.above ++ [(location.key, location.node)]

mutual

/-- The locations in a unit that stands under this key behind these steps, the unit's own first. -/
def Node.locations (above : Trail) (key : String) : Node → List Location
  | .group attributes children =>
    ⟨above, key, .group attributes children⟩ :: children.locations (above ++ [(key, .group attributes children)])
  | .command text => [⟨above, key, .command text⟩]
  | .placeholder => [⟨above, key, .placeholder⟩]
  | .reference ids => [⟨above, key, .reference ids⟩]

/-- The locations in a row of children behind these steps. -/
def Children.locations (above : Trail) : Children → List Location
  | .nil => []
  | .cons key node rest => node.locations above key ++ rest.locations above

end

/-- The locations below the root in pre-order, siblings in their order. -/
def Group.locations (group : Group) : List Location :=
  group.children.locations []

/-!
### The function of a location
-/

/-- The keys of the steps without the empty ones in front, joined by the separator. -/
def Trail.name (separator : Separator) (trail : Trail) : String :=
  separator.text.intercalate ((trail.map Prod.fst).dropWhile (· = ""))

/-- The directory override of a unit; only groups have one. -/
def Node.override? : Node → Option String
  | .group attributes _ => attributes.directory
  | .command _ => none
  | .placeholder => none
  | .reference _ => none

/-- The overrides that are not empty, from the root's own on, joined from left to right. -/
def Trail.directory (root : Option String) (trail : Trail) : Option String :=
  ((root :: trail.map fun step => step.2.override?).filterMap nonEmpty).foldl
    (fun outer override => some (scopedPath outer override)) none

/-- The command that a unit stands for. A reference stands for its own text. -/
def Node.command? : Node → Option String
  | .group attributes _ => attributes.command
  | .command text => some text
  | .placeholder => none
  | .reference ids => some (formatReference ids)

/-- The function of a location in a tree whose root has this override. -/
def Location.function (separator : Separator) (root : Option String) (location : Location) : Function :=
  ⟨location.trail.name separator, location.trail.directory root, location.node.command?⟩

/-!
### One step further down
-/

/-- The name of the group that the steps lead to; the root has none. -/
def Trail.groupName (separator : Separator) (trail : Trail) : Option String :=
  if trail = [] then none else some (trail.name separator)

/-- Names are joined step by step, as the naming pass does it. -/
theorem Trail.name_append_singleton (separator : Separator) (above : Trail) (key : String) (node : Node) :
    Trail.name separator (above ++ [(key, node)]) = qualify separator (above.groupName separator) key := by
  have keys : ((above ++ [(key, node)]).map Prod.fst).dropWhile (· = "") =
      if (above.map Prod.fst).dropWhile (· = "") = [] then [key].dropWhile (· = "")
      else (above.map Prod.fst).dropWhile (· = "") ++ [key] := by
    rw [List.map_append, List.dropWhile_append]
    simp only [List.isEmpty_iff, List.map_cons, List.map_nil]
  have alone : separator.text.intercalate ([key].dropWhile (· = "")) = key := by
    by_cases empty : key = ""
    · simp [empty]
    · simp [empty]
  rw [Trail.name, keys]
  cases named : (above.map Prod.fst).dropWhile (· = "") with
  | nil =>
      rw [if_pos rfl, alone]
      by_cases atRoot : above = []
      · simp [Trail.groupName, atRoot, qualify]
      · simp [Trail.groupName, atRoot, qualify, Trail.name, named]
  | cons first others =>
      have notRoot : above ≠ [] := by
        rintro rfl
        simp at named
      have firstNe : first ≠ "" := by
        have := List.head?_dropWhile_not (fun key : String => decide (key = "")) (above.map Prod.fst)
        simpa [named] using this
      have nameNe : separator.text.intercalate (first :: others) ≠ "" := by
        cases others with
        | nil => simpa using firstNe
        | cons next more => simp [String.intercalate_cons_cons, String.append_eq_empty_iff, firstNe]
      rw [if_neg (by simp), String.intercalate_append_of_ne_nil (by simp) (by simp)]
      simp [Trail.groupName, notRoot, qualify, Trail.name, named, nameNe]

/-- Joining onto a directory never gives the empty text, unless what is joined is empty. -/
theorem scopedPath_ne_empty (outer : Option String) {override : String} (ne : override ≠ "") :
    scopedPath outer override ≠ "" := by
  unfold scopedPath
  split
  · exact ne
  · split
    · exact ne
    · simp [String.append_eq_empty_iff, ne]

/-- An empty outer directory counts as none. -/
theorem scopedPath_nonEmpty (outer : Option String) (override : String) :
    scopedPath (nonEmpty outer) override = scopedPath outer override := by
  cases outer with
  | none => rfl
  | some text =>
      by_cases empty : text = ""
      · simp [scopedPath, empty]
      · rw [nonEmpty_some_of_ne empty]

theorem Trail.directory_nil (root : Option String) : Trail.directory root [] = nonEmpty root := by
  cases override : nonEmpty root with
  | none => simp [Trail.directory, override]
  | some text => simp [Trail.directory, override, scopedPath]

/-- Directories are joined step by step. -/
theorem Trail.directory_append_singleton (root : Option String) (above : Trail) (key : String) (node : Node) :
    Trail.directory root (above ++ [(key, node)]) =
      match nonEmpty node.override? with
      | some override => some (scopedPath (Trail.directory root above) override)
      | none => Trail.directory root above := by
  have split : (root :: (above ++ [(key, node)]).map fun step => step.2.override?) =
      (root :: above.map fun step => step.2.override?) ++ [node.override?] := by simp
  rw [Trail.directory, split, List.filterMap_append, List.foldl_append]
  cases own : nonEmpty node.override? with
  | none => simp [own, Trail.directory]
  | some override => simp [own, Trail.directory]

/-- The directory of a trail is never the empty text. -/
theorem Trail.nonEmpty_directory (root : Option String) (trail : Trail) :
    nonEmpty (Trail.directory root trail) = Trail.directory root trail := by
  induction trail using List.reverseRecOn with
  | nil =>
      rw [Trail.directory_nil]
      simp [nonEmpty]
  | append_singleton above step ih =>
      obtain ⟨key, node⟩ := step
      rw [Trail.directory_append_singleton]
      cases own : nonEmpty node.override? with
      | none => exact ih
      | some override =>
          have ne : override ≠ "" := by
            rintro rfl
            simp [nonEmpty, Option.filter_eq_some_iff] at own
          exact nonEmpty_some_of_ne (scopedPath_ne_empty _ ne)

/-- The directory that the pass gives to a group is that of its trail. -/
theorem Trail.effectiveDirectory (root : Option String) (above : Trail) (key : String) (node : Node) :
    ShellUnits.effectiveDirectory (Trail.directory root above) node.override? =
      Trail.directory root (above ++ [(key, node)]) := by
  rw [Trail.directory_append_singleton]
  unfold ShellUnits.effectiveDirectory
  cases nonEmpty node.override? with
  | none => exact Trail.nonEmpty_directory root above
  | some override => simp only [scopedPath_nonEmpty]

/-!
### All locations of a tree
-/

theorem Trail.groupName_append_singleton (separator : Separator) (above : Trail) (key : String) (node : Node) :
    Trail.groupName separator (above ++ [(key, node)]) =
      some (qualify separator (above.groupName separator) key) := by
  rw [Trail.groupName, if_neg (by simp), Trail.name_append_singleton]

/-- A unit that is no group becomes a group of its own: it has the directory around it, since it cannot have an
override. -/
theorem Node.functions_derive_leaf (separator : Separator) (root : Option String) (above : Trail) (key : String)
    {node : Node} (noOverride : node.override? = none)
    (leaf : ∀ directory parent, node.derive separator directory parent key =
      .group { workingDirectory := nonEmpty directory, qualifiedName := some (qualify separator parent key),
               command := node.command? } .nil) :
    (node.derive separator (above.directory root) (above.groupName separator) key).functions =
      [Location.function separator root ⟨above, key, node⟩] := by
  have directory := Trail.effectiveDirectory root above key node
  rw [noOverride, effectiveDirectory_none] at directory
  rw [leaf, directory]
  simp only [Node.functions, Children.functions, Function.ofAttributes?, Option.map_some, Option.toList_some,
    List.append_nil, Location.function, Location.trail, Trail.name_append_singleton]

mutual

theorem Node.functions_derive (separator : Separator) (root : Option String) (above : Trail) (key : String) :
    ∀ node : Node,
      (node.derive separator (above.directory root) (above.groupName separator) key).functions =
        (node.locations above key).map (Location.function separator root)
  | .group attributes children => by
      have directory := Trail.effectiveDirectory root above key (.group attributes children)
      have name := Trail.groupName_append_singleton separator above key (.group attributes children)
      have below := Children.functions_derive separator root (above ++ [(key, .group attributes children)]) children
      rw [name] at below
      simp only [Node.override?] at directory
      simp only [Node.derive, Node.functions, Function.ofAttributes?, Node.locations, directory, below,
        List.map_cons, Option.map_some, Option.toList_some, List.singleton_append, List.cons.injEq, and_true]
      simp only [Location.function, Location.trail, Trail.name_append_singleton, Node.command?]
  | .command _ => Node.functions_derive_leaf separator root above key rfl fun _ _ => rfl
  | .placeholder => Node.functions_derive_leaf separator root above key rfl fun _ _ => rfl
  | .reference _ => Node.functions_derive_leaf separator root above key rfl fun _ _ => rfl

/-- The functions of derived children are those of the locations of the children. -/
theorem Children.functions_derive (separator : Separator) (root : Option String) (above : Trail) :
    ∀ children : Children,
      (children.derive separator (above.directory root) (above.groupName separator)).functions =
        (children.locations above).map (Location.function separator root)
  | .nil => rfl
  | .cons key node rest => by
      simp only [Children.derive, Children.functions, Children.locations, List.map_append,
        Node.functions_derive separator root above key node, Children.functions_derive separator root above rest]

end

/-- The functions of a processed document are those of the locations of its expanded tree. -/
theorem Document.functions_processed (separator : Separator) (document : Document) :
    (document.processed separator).units.functions =
      document.units.expand.locations.map
        (Location.function separator document.units.attributes.directory) := by
  have functions := Children.functions_derive separator document.units.attributes.directory []
    document.units.expand.children
  rw [Trail.directory_nil] at functions
  exact functions

/-- Compiling a document on which no stage fails gives one function for each location of the expanded tree, in
pre-order, with the separator that normalizing chose. The cursor yields the same list call by call. What
derived attributes the document holds beforehand makes no difference. -/
theorem compile_eq_functions_of_locations {document : Document}
    (succeeds : (Pipeline.standard.run document).result = .ok ()) :
    ∃ separator functions,
      document.options.normalize.result = .ok separator ∧
        (∀ reference ∈ document.units.references, ∃ target, document.units.get? reference.ids = some target) ∧
        functions = document.units.expand.locations.map
          (Location.function separator document.units.attributes.directory) ∧
        (compile document).result = .ok functions ∧
        (∀ count, (Cursor.ofGroup (compile document).left.units).take count = functions.take count) ∧
        ∀ other : Document, other.options = document.options →
          other.units.withoutDerived = document.units.withoutDerived →
          (compile other).result = .ok functions := by
  obtain ⟨separator, ok, resolves, -⟩ := Pipeline.processed_of_standard_run succeeds
  obtain ⟨left, result⟩ := compile_of_resolved ok resolves
  have functions := Document.functions_processed separator document
  refine ⟨separator, _, ok, Group.firstFailure?_eq_none_iff.mp resolves, rfl, ?_, ?_, ?_⟩
  · rw [result, functions]
  · intro count
    rw [left, Cursor.take_eq_take_remaining, Cursor.remaining_ofGroup, functions]
  · intro other options alike
    have otherOk : other.options.normalize.result = .ok separator := by rw [options, ok]
    have otherResolves : other.units.firstFailure? = none := by
      rw [← Group.firstFailure?_withoutDerived, alike, Group.firstFailure?_withoutDerived, resolves]
    have children := Document.processed_children_congr separator alike
    rw [(compile_of_resolved otherOk otherResolves).2, ← functions]
    simp only [Group.functions, children]

/-- A library with a directory of its own and an outdated one, and a copy of it under another key. -/
def Document.libraryTwice : Document where
  options := [("sep", .string "-")]
  units :=
    { children :=
        .cons "lib" (.group { directory := some "x", workingDirectory := some "old" }
          (.cons "build" (.command "make") .nil)) <|
        .cons "app" (.reference ["lib"]) .nil }

theorem compile_libraryTwice :
    (Pipeline.standard.run .libraryTwice).result = .ok () ∧
      (compile .libraryTwice).result =
        .ok [⟨"lib", some "x", none⟩, ⟨"lib-build", some "x", some "make"⟩,
          ⟨"app", some "x", none⟩, ⟨"app-build", some "x", some "make"⟩] := by
  have succeeds : (Pipeline.standard.run .libraryTwice).result = .ok () := by decide
  obtain ⟨separator, functions, ok, -, listed, compiled, -⟩ := compile_eq_functions_of_locations succeeds
  have chosen : Document.libraryTwice.options.normalize.result = .ok .dash := by decide
  rw [chosen, Except.ok.injEq] at ok
  refine ⟨succeeds, ?_⟩
  rw [compiled, listed, ← ok]
  decide

end ShellUnits
