import ShellUnits.Proofs.Format
import ShellUnits.Proofs.LoadShape
import ShellUnits.Proofs.Processing

/-!
Reserved keys behind the loader.

The loader makes no unit of an entry under a reserved key. No later pass brings in a key that was not there, and
a name is made of keys and separators, so the marker comes up in no name. Ids may hold the marker, other than
keys of units: a reference with such an id addresses nothing, and then nothing is compiled at all.

Main statements: `Children.names_allowed_derive`, `Children.StandFor.mem_references`, `compile_of_reserved`.
-/

namespace ShellUnits

/-!
### What names are made of
-/

section Names

variable {allowed : Char → Prop} {separator : Separator}

theorem qualify_allowed (separates : ∀ c ∈ separator.text.toList, allowed c) {parent : Option String}
    (above : ∀ name ∈ parent, ∀ c ∈ name.toList, allowed c) {key : String} (own : ∀ c ∈ key.toList, allowed c) :
    ∀ c ∈ (qualify separator parent key).toList, allowed c := by
  unfold qualify
  cases parent with
  | none => exact own
  | some parent =>
      dsimp only
      split
      · exact own
      · intro c mem
        simp only [String.toList_append, List.mem_append] at mem
        rcases mem with (inParent | inSeparator) | inKey
        · exact above parent rfl c inParent
        · exact separates c inSeparator
        · exact own c inKey

theorem Node.mem_functions_group {attributes : Attributes} {children : Children} {name : String}
    (named : attributes.qualifiedName = some name) {function : Function}
    (mem : function ∈ (Node.group attributes children).functions) :
    function.name = name ∨ function ∈ children.functions := by
  simp only [Node.functions, Function.ofAttributes?, named, Option.map_some, Option.toList_some,
    List.singleton_append, List.mem_cons] at mem
  rcases mem with rfl | below
  · exact .inl rfl
  · exact .inr below

theorem Node.name_of_mem_leaf {attributes : Attributes} {name : String}
    (named : attributes.qualifiedName = some name) {function : Function}
    (mem : function ∈ (Node.group attributes .nil).functions) : function.name = name := by
  rcases Node.mem_functions_group named mem with same | below
  · exact same
  · simp [Children.functions] at below

mutual

theorem Node.names_allowed_derive (separates : ∀ c ∈ separator.text.toList, allowed c)
    {directory parent : Option String} (above : ∀ name ∈ parent, ∀ c ∈ name.toList, allowed c) {key : String}
    (own : ∀ c ∈ key.toList, allowed c) :
    ∀ {node : Node}, (node.Everywhere fun key _ => ∀ c ∈ key.toList, allowed c) →
      ∀ function ∈ (node.derive separator directory parent key).functions, ∀ c ∈ function.name.toList, allowed c
  | .group attributes children, below, function, mem => by
      have name := qualify_allowed separates above own
      rcases Node.mem_functions_group rfl mem with same | inChildren
      · exact same ▸ name
      · exact Children.names_allowed_derive separates (by simpa using name) below function inChildren
  | .command _, _, _, mem => Node.name_of_mem_leaf rfl mem ▸ qualify_allowed separates above own
  | .placeholder, _, _, mem => Node.name_of_mem_leaf rfl mem ▸ qualify_allowed separates above own
  | .reference _, _, _, mem => Node.name_of_mem_leaf rfl mem ▸ qualify_allowed separates above own

/-- A name holds only characters of keys, of the separator and of the name of the group above. -/
theorem Children.names_allowed_derive (separates : ∀ c ∈ separator.text.toList, allowed c)
    {directory parent : Option String} (above : ∀ name ∈ parent, ∀ c ∈ name.toList, allowed c) :
    ∀ {children : Children}, (children.Everywhere fun key _ => ∀ c ∈ key.toList, allowed c) →
      ∀ function ∈ (children.derive separator directory parent).functions, ∀ c ∈ function.name.toList, allowed c
  | .cons _ _ _, ⟨own, below, after⟩, function, mem => by
      simp only [Children.derive, Children.functions, List.mem_append] at mem
      rcases mem with first | later
      · exact Node.names_allowed_derive separates above own below function first
      · exact Children.names_allowed_derive separates above after function later

end

/-- Expanding and deriving bring no character into a name that is in no key and not the separator. -/
theorem Document.name_processed {document : Document} (separates : ∀ c ∈ separator.text.toList, allowed c)
    (everywhere : document.units.children.Everywhere fun key _ => ∀ c ∈ key.toList, allowed c) :
    ∀ function ∈ (document.processed separator).units.functions, ∀ c ∈ function.name.toList, allowed c :=
  Children.names_allowed_derive separates (by simp) (Children.keys_expand everywhere everywhere)

end Names

/-!
### References that stand in a value
-/

/-- An entry under a key without the marker stands among the children, with all references in it. -/
theorem Children.StandFor.exists_of_mem {key : String} {value : Value} (unreserved : isReservedKey key = false) :
    ∀ {entries : Entries} {children : Children}, children.StandFor entries →
      (.string key, value) ∈ entries.toList →
        ∃ node : Node, node.StandsFor value ∧ ∀ (location : List String) (reference : PlacedReference),
          reference ∈ node.references (location ++ [key]) → reference ∈ children.references location
  | .cons k first rest, _, stands, mem => by
      have split : (k = .string key ∧ first = value) ∨ (.string key, value) ∈ rest.toList := by
        simpa [Entries.toList, eq_comm] using mem
      cases stands with
      | skip reserved others =>
          rcases split with ⟨same, -⟩ | later
          · cases same
            simp [reserved] at unreserved
          · exact others.exists_of_mem unreserved later
      | child _ own others =>
          rcases split with ⟨same, rfl⟩ | later
          · cases same
            exact ⟨_, own, fun location reference mem => List.mem_append_left _ mem⟩
          · obtain ⟨node, stands, among⟩ := others.exists_of_mem unreserved later
            exact ⟨node, stands, fun location reference mem => List.mem_append_right _ (among location reference mem)⟩

/-- A string that is a reference stands in the tree where it is reached from the entries. -/
theorem Children.StandFor.mem_references {entries reached : Entries} {path : List String}
    (reaches : entries.Reaches path reached) {key text : String} {ids : List String}
    (mem : (.string key, .string text) ∈ reached.toList) (unreserved : isReservedKey key = false)
    (isReference : Node.ofText text = .reference ids) {children : Children} (stands : children.StandFor entries)
    (location : List String) : ⟨location ++ path ++ [key], ids⟩ ∈ children.references location := by
  induction reaches generalizing children location with
  | here entries =>
      obtain ⟨node, first, among⟩ := stands.exists_of_mem unreserved mem
      cases first
      refine among location _ ?_
      simp [isReference, Node.references]
  | @enter entries inner reached step path there stepUnreserved further ih =>
      obtain ⟨node, first, among⟩ := stands.exists_of_mem stepUnreserved there
      cases first with
      | group row =>
          refine among location _ ?_
          simpa [Node.references] using ih mem row (location ++ [step])

/-- With a reference that addresses no unit, a document does not compile. -/
theorem compile_fails_of_reference {document : Document} {reference : PlacedReference}
    (mem : reference ∈ document.units.references) (absent : document.units.get? reference.ids = none) :
    ∃ failure, (compile document).result = .error failure := by
  cases compiles : (compile document).result with
  | error failure => exact ⟨failure, rfl⟩
  | ok functions =>
      obtain ⟨separator, -, resolves, -⟩ := compile_eq_ok_iff.mp compiles
      obtain ⟨target, found⟩ := Group.firstFailure?_eq_none_iff.mp resolves reference mem
      simp [absent] at found

/-- The value that the units of a document stand for is the only one under their key. -/
theorem Document.children_standFor_of_only_units {document : Document} {entries units : Entries}
    (wellKeyed : (Value.mapping entries).WellKeyed) (mem : (.string "units", .mapping units) ∈ entries.toList)
    (loads : (Document.ofValue (.mapping entries)).result = .ok document) :
    document.units.children.StandFor units := by
  obtain ⟨others, value, same, there, stands⟩ := Document.standsFor_of_ofValue loads
  cases same
  have once : (Value.string "units", value) = (.string "units", .mapping units) :=
    List.inj_on_of_nodup_map wellKeyed.1 there mem rfl
  cases once
  rcases stands with ⟨isNull, -⟩ | ⟨row, isMapping, stands⟩
  · simp at isNull
  · cases isMapping
    exact stands

/-- In a document that was loaded no unit has a key with the reserved marker, and no function gets a name with it.
If a string under a key without the marker is loaded as a reference with the marker in an id, wherever it is
reached from the units, the document does not compile. -/
theorem compile_of_reserved {value : Value} {document : Document} (wellKeyed : value.WellKeyed)
    (loads : (Document.ofValue value).result = .ok document) :
    document.units.children.Unreserved ∧
      (∀ functions, (compile document).result = .ok functions →
        ∀ function ∈ functions, '@' ∉ function.name.toList) ∧
      ∀ entries units path reached key text ids, value = .mapping entries →
        (.string "units", .mapping units) ∈ entries.toList → units.Reaches path reached →
          (.string key, .string text) ∈ reached.toList → isReservedKey key = false →
            Node.ofText text = .reference ids → (∃ id ∈ ids, '@' ∈ id.toList) →
              ∃ failure, (compile document).result = .error failure := by
  obtain ⟨-, unreservedKeys, -⟩ := Document.ofValue_spec wellKeyed loads
  refine ⟨unreservedKeys, ?_, ?_⟩
  · intro functions compiles function mem marked
    obtain ⟨separator, -, -, rfl⟩ := compile_eq_ok_iff.mp compiles
    have separates : ∀ c ∈ separator.text.toList, c ≠ '@' := by
      cases separator <;> simp [Separator.text]
    have keys : document.units.children.Everywhere fun key _ => ∀ c ∈ key.toList, c ≠ '@' := by
      refine Children.Everywhere.imp ?_ unreservedKeys unreservedKeys
      intro key _ unreserved _ c mem isMarker
      exact isReservedKey_eq_false_iff.mp unreserved (isMarker ▸ mem)
    exact Document.name_processed separates keys function mem '@' marked rfl
  · rintro entries units path reached key text ids rfl there reaches mem unreserved isReference ⟨id, isId, marked⟩
    have stands := Document.children_standFor_of_only_units wellKeyed there loads
    refine compile_fails_of_reference (stands.mem_references reaches mem unreserved isReference []) ?_
    rw [Option.eq_none_iff_forall_ne_some]
    intro target found
    exact isReservedKey_eq_false_iff.mp (Group.allowed_of_get? unreservedKeys found id isId) marked

/-- Units of which one has a command and a note under reserved keys, and another holds this text. -/
def Entries.annotated (text : String) : Entries :=
  .cons (.string "lib") (.mapping <|
    .cons (.string "@command") (.string "echo") <|
      .cons (.string "@note") (.sequence (.cons (.string "$(@note)") .nil)) <|
        .cons (.string "run") (.string "make") .nil) <|
    .cons (.string "use") (.string text) .nil

/-- The top level of a document with these units. -/
def Entries.ofUnits (units : Entries) : Entries :=
  .cons (.string "units") (.mapping units) .nil

/-- A reference to a unit is replaced, and one to the attribute beside it fails. -/
theorem compile_of_reserved_annotated :
    (∃ document functions,
      (Document.ofValue (.mapping (.ofUnits (.annotated "$(lib.run)")))).result = .ok document ∧
        (compile document).result = .ok functions ∧ functions.map Function.name = ["lib", "lib.run", "use"] ∧
          ∀ function ∈ functions, '@' ∉ function.name.toList) ∧
      ∃ document failure,
        (Document.ofValue (.mapping (.ofUnits (.annotated "$(lib.@command)")))).result = .ok document ∧
          Node.ofText "$(lib.@command)" = .reference ["lib", "@command"] ∧
            (compile document).result = .error failure := by
  have isReference : Node.ofText "$(lib.@command)" = .reference ["lib", "@command"] := by decide
  constructor
  · have wellKeyed : (Value.mapping (.ofUnits (.annotated "$(lib.run)"))).WellKeyed := by decide
    obtain ⟨-, unmarked, -⟩ := compile_of_reserved wellKeyed rfl
    exact ⟨_, _, rfl, rfl, by decide, unmarked _ rfl⟩
  · have wellKeyed : (Value.mapping (.ofUnits (.annotated "$(lib.@command)"))).WellKeyed := by decide
    obtain ⟨-, -, fails⟩ := compile_of_reserved wellKeyed rfl
    have isUnit : (Value.string "use", Value.string "$(lib.@command)") ∈
        (Entries.annotated "$(lib.@command)").toList := List.mem_cons_of_mem _ List.mem_cons_self
    obtain ⟨failure, failed⟩ := fails _ _ [] _ "use" _ _ rfl List.mem_cons_self (.here _) isUnit (by decide)
      isReference ⟨"@command", by decide, by decide⟩
    exact ⟨_, failure, rfl, isReference, failed⟩

end ShellUnits
