import ShellUnits.Proofs.Format
import ShellUnits.Proofs.Lookup

/-!
What becomes of the entries that a document is loaded from.

Each entry of the top level and of each group either is kept, as a part of the document that can be found again
at its place, or it is reported, once, with its key and the location of its group. Nothing else is reported but
that the root carries a command, and reports have the order of the entries, those of a group behind the entry
that holds it.

The keys on the way to an entry tell it from all others, since no mapping has a key twice. Two locations can have
the same dotted text, so an event is matched with its entry by the keys and not by that text.

Main definitions: `Entries.documentEntries`, `DocumentEntry.event?`, `DocumentEntry.AnnouncedBy`,
`Document.Represents`.
Main statements: `loadEntries_events`, `loadEntries_held`, `Group.follow_of_reaches`, `loadTopLevel_events`,
`Entries.nodup_documentEntries`, `DocumentEntry.eventsAbout_filterMap`, `Document.represents_of_silent`,
`Document.ofValue_accounts`.
-/

namespace ShellUnits

/-!
### Entries and their reports
-/

/-- What is reported of an entry of a group; nothing of a unit and of an attribute that is kept. -/
def PlacedEntry.event? : PlacedEntry → Option Event
  | ⟨location, .string key, _⟩ =>
    if key ∈ derivedAttributeKeys then some (.derivedAttribute location key)
    else if isReservedKey key ∧ key ∉ keptAttributeKeys then some (.unknownAttribute location key)
    else none
  | _ => none

/-- An entry that a document is loaded from: of the top level, or of the group at some location. -/
inductive DocumentEntry where
  | topLevel (key value : Value)
  | placed (entry : PlacedEntry)
deriving DecidableEq, Repr

/-- What is reported of an entry. -/
def DocumentEntry.event? : DocumentEntry → Option Event
  | .topLevel (.string key) _ => if key = "units" ∨ key = "options" then none else some (.unknownTopLevelKey key)
  | .topLevel _ _ => none
  | .placed entry => entry.event?

/-- An entry of the top level, and behind it the entries of all groups in it. -/
def topLevelEntries : Value × Value → List DocumentEntry
  | (key, value) =>
    .topLevel key value :: (if key = .string "units" then (value.placed []).map .placed else [])

/-- The entries of a document in order, each with all entries below it right behind it. -/
def Entries.documentEntries (entries : Entries) : List DocumentEntry :=
  entries.toList.flatMap topLevelEntries

/-- The keys on the way from the root units to an entry, and its own. -/
def PlacedEntry.path (entry : PlacedEntry) : List Value :=
  entry.location.map .string ++ [entry.key]

/-- The keys on the way from the top level to an entry, and its own. -/
def DocumentEntry.path : DocumentEntry → List Value
  | .topLevel key _ => [key]
  | .placed entry => .string "units" :: entry.path

/-- The path of the entry that an event is about. -/
def Event.path? : Event → Option (List Value)
  | .unknownTopLevelKey key => some [.string key]
  | .derivedAttribute location key | .unknownAttribute location key =>
    some (.string "units" :: (location.map .string ++ [.string key]))
  | _ => none

/-- The events that are about an entry. -/
def DocumentEntry.eventsAbout (entry : DocumentEntry) (events : List Event) : List Event :=
  events.filter fun event => event.path? = some entry.path

/-- The event announces the entry. It warns of an unknown key of the top level, and of a reserved key that is no
attribute with the location of its group; an attribute that is derived again is not worth a warning. -/
def DocumentEntry.AnnouncedBy : DocumentEntry → Event → Prop
  | .topLevel (.string key) _, event =>
    (key ≠ "units" ∧ key ≠ "options") ∧ event.level = .warn ∧ event.fields = [("key", key)]
  | .placed ⟨location, .string key, _⟩, event =>
    (isReservedKey key = true ∧ key ∉ keptAttributeKeys) ∧
      event.level = (if key ∈ derivedAttributeKeys then .debug else .warn) ∧
        event.fields = [("location", ".".intercalate location), ("key", key)]
  | _, _ => False

/-!
### Reports have the order of the entries
-/

theorem PlacedEntry.event?_of_kept {location : List String} {key : String} {value : Value}
    (kept : key ∈ keptAttributeKeys) : event? ⟨location, .string key, value⟩ = none := by
  have notDerived : key ∉ derivedAttributeKeys := fun derived => not_mem_kept_of_mem_derived derived kept
  simp [event?, kept, notDerived]

theorem PlacedEntry.event?_of_unreserved {location : List String} {key : String} {value : Value}
    (unreserved : isReservedKey key = false) : event? ⟨location, .string key, value⟩ = none := by
  have notDerived : key ∉ derivedAttributeKeys := by
    intro derived
    simp [isReservedKey_of_mem_derived derived] at unreserved
  simp [event?, unreserved, notDerived]

mutual

theorem loadNode_events {location : List String} {node : Node} :
    ∀ {value : Value}, (loadNode location value).result = .ok node →
      (loadNode location value).events = (value.placed location).filterMap PlacedEntry.event?
  | .null, _ => rfl
  | .bool _, _ => rfl
  | .number _, _ => rfl
  | .string _, _ => rfl
  | .mapping entries, loads => by
      simp only [loadNode, Loaded.map_result_eq_ok] at loads
      rcases loads with ⟨group, read, -⟩
      exact loadEntries_events read
  | .sequence _, loads => by simp [loadNode] at loads
  | .tagged _ _, loads => by simp [loadNode] at loads

/-- What is reported of a group is what is reported of its entries and of those below them, in order. -/
theorem loadEntries_events {location : List String} :
    ∀ {entries : Entries} {group : Group}, (loadEntries location entries).result = .ok group →
      (loadEntries location entries).events = (entries.placed location).filterMap PlacedEntry.event?
  | .nil, _, _ => rfl
  | .cons key value rest, group, loads => by
      rcases loadEntries_cons_reads loads with ⟨text, others, own, rfl, read, reads, events⟩
      rw [events, loadEntries_events read, Entries.filterMap_placed_cons]
      cases reads with
      | directory own => rfl
      | command own => rfl
      | derived value derived =>
          have reserved := isReservedKey_of_mem_derived derived
          simp [PlacedEntry.event?, derived, Value.unitKey?, reserved]
      | unknown value reserved notKept notDerived =>
          simp [PlacedEntry.event?, notDerived, notKept, reserved, Value.unitKey?]
      | child unreserved readNode =>
          rw [loadNode_events readNode, PlacedEntry.event?_of_unreserved unreserved]
          simp [Value.unitKey?, unreserved]

end

/-!
### No two entries have one place
-/

/-- Below a group the keys on the way go on with one of its own. -/
theorem Entries.path_of_mem_placed {entries : Entries} {location : List String} {entry : PlacedEntry}
    (mem : entry ∈ entries.placed location) :
    ∃ key ∈ entries.keys, ∃ further, entry.path = location.map .string ++ key :: further := by
  rcases Entries.mem_placed_iff.mp mem with ⟨path, reached, reaches, located, found⟩
  rw [PlacedEntry.path, located]
  cases reaches with
  | here =>
      exact ⟨entry.key, Entries.mem_keys_iff.mpr ⟨_, found⟩, [], by simp⟩
  | @enter _ inner _ key path there _ _ =>
      exact ⟨.string key, Entries.mem_keys_iff.mpr ⟨_, there⟩, path.map .string ++ [entry.key], by simp⟩

theorem Value.path_of_mem_placed {value : Value} {location : List String} {entry : PlacedEntry}
    (mem : entry ∈ value.placed location) :
    ∃ next further, entry.path = location.map .string ++ next :: further := by
  cases value with
  | mapping entries =>
      rcases Entries.path_of_mem_placed mem with ⟨next, -, further, path⟩
      exact ⟨next, further, path⟩
  | _ => simp [Value.placed] at mem

mutual

theorem Value.nodup_placed (location : List String) :
    ∀ {value : Value}, value.WellKeyed → ((value.placed location).map PlacedEntry.path).Nodup
  | .null, _ => List.nodup_nil
  | .bool _, _ => List.nodup_nil
  | .number _, _ => List.nodup_nil
  | .string _, _ => List.nodup_nil
  | .sequence _, _ => List.nodup_nil
  | .mapping _, wellKeyed => Entries.nodup_placed location wellKeyed.1 wellKeyed.2
  | .tagged _ _, _ => List.nodup_nil

/-- Different entries of a group, and those below them, are under different keys. -/
theorem Entries.nodup_placed (location : List String) :
    ∀ {entries : Entries}, entries.keys.Nodup → entries.WellKeyed →
      ((entries.placed location).map PlacedEntry.path).Nodup
  | .nil, _, _ => List.nodup_nil
  | .cons key value rest, distinct, ⟨_, wellKeyed, others⟩ => by
      rcases List.nodup_cons.mp distinct with ⟨absent, distinctRest⟩
      -- the first entry and those below it go on with a key that no other entry of the group has
      have apart : ∀ {further}, location.map Value.string ++ key :: further ∉
          (rest.placed location).map PlacedEntry.path := by
        intro further mem
        rcases List.mem_map.mp mem with ⟨entry, inRest, same⟩
        rcases Entries.path_of_mem_placed inRest with ⟨other, isKey, more, path⟩
        rw [path, List.append_cancel_left_eq, List.cons.injEq] at same
        exact absent (same.1 ▸ isKey)
      simp only [Entries.placed, List.map_cons, List.map_append]
      cases unit : key.unitKey? with
      | none => exact List.nodup_cons.mpr ⟨apart, Entries.nodup_placed location distinctRest others⟩
      | some name =>
          rcases Value.unitKey?_eq_some_iff.mp unit with ⟨rfl, -⟩
          have below : ∀ path ∈ (value.placed (location ++ [name])).map PlacedEntry.path,
              ∃ next further, path = location.map .string ++ .string name :: next :: further := by
            intro path mem
            rcases List.mem_map.mp mem with ⟨entry, inValue, rfl⟩
            rcases Value.path_of_mem_placed inValue with ⟨next, further, path⟩
            exact ⟨next, further, by simp [path]⟩
          apply List.nodup_cons.mpr ⟨?_, List.Nodup.append (Value.nodup_placed _ wellKeyed)
            (Entries.nodup_placed location distinctRest others) ?_⟩
          · rw [List.mem_append, not_or]
            refine ⟨fun mem => ?_, apart⟩
            rcases below _ mem with ⟨next, further, same⟩
            simp [PlacedEntry.path] at same
          · intro path inValue inRest
            rcases below path inValue with ⟨next, further, rfl⟩
            exact apart inRest

end

/-!
### What is kept of an entry
-/

/-- An entry is kept in its group: as the directory, as the command, or as a child. -/
inductive Group.Keeps (group : Group) : String → Value → Prop where
  | directory {text : String} (kept : group.attributes.directory = some text) :
      Group.Keeps group workingDirectoryKey (.string text)
  | command {text : String} (kept : group.attributes.command = some text) :
      Group.Keeps group commandKey (.string text)
  | child {key : String} {value : Value} {node : Node} (unreserved : isReservedKey key = false)
      (found : group.children.get? key = some node) (stands : node.StandsFor value) : Group.Keeps group key value

/-- What an entry of a group that was read at this location has become: it is passed over, or its value is found in
the group. -/
inductive HeldEntry (location : List String) (group : Group) : String → Value → Prop where
  | directory {text : String} (kept : group.attributes.directory = some text) :
      HeldEntry location group workingDirectoryKey (.string text)
  | command {text : String} (kept : group.attributes.command = some text) :
      HeldEntry location group commandKey (.string text)
  | passedOver {key : String} (value : Value) (reserved : isReservedKey key = true)
      (notKept : key ∉ keptAttributeKeys) : HeldEntry location group key value
  | child {key : String} {value : Value} {node : Node} (unreserved : isReservedKey key = false)
      (found : group.children.get? key = some node)
      (reads : (loadNode (location ++ [key]) value).result = .ok node) : HeldEntry location group key value

theorem ReadsEntry.held {location : List String} {others group : Group} {key : String} {value : Value}
    {own : List Event} (reads : ReadsEntry location others key value group own) :
    HeldEntry location group key value := by
  cases reads with
  | directory text => exact .directory rfl
  | command text => exact .command rfl
  | derived value derived =>
      exact .passedOver value (isReservedKey_of_mem_derived derived) (not_mem_kept_of_mem_derived derived)
  | unknown value reserved notKept _ => exact .passedOver value reserved notKept
  | child unreserved readNode => exact .child unreserved (by simp [Children.get?]) readNode

/-- Reading an entry changes nothing of what is held under another key. -/
theorem HeldEntry.step {location : List String} {others group : Group} {key other : String} {value held : Value}
    {own : List Event} (holds : HeldEntry location others other held)
    (reads : ReadsEntry location others key value group own) (apart : key ≠ other) :
    HeldEntry location group other held := by
  cases holds with
  | directory kept =>
      cases reads with
      | directory text => contradiction
      | _ => exact .directory kept
  | command kept =>
      cases reads with
      | command text => contradiction
      | _ => exact .command kept
  | passedOver held reserved notKept => exact .passedOver held reserved notKept
  | child unreserved found readNode =>
      cases reads with
      | child _ _ => exact .child unreserved (by simpa [Children.get?, apart] using found) readNode
      | _ => exact .child unreserved found readNode

/-- All entries of a group are passed over or held by it. -/
theorem loadEntries_held {location : List String} {key value : Value} :
    ∀ {entries : Entries} {group : Group}, (loadEntries location entries).result = .ok group →
      entries.keys.Nodup → (key, value) ∈ entries.toList →
        ∃ text, key = .string text ∧ HeldEntry location group text value
  | .cons _ _ rest, _, loads, distinct, mem => by
      rcases loadEntries_cons_reads loads with ⟨text, others, own, rfl, read, reads, -⟩
      rcases List.nodup_cons.mp distinct with ⟨absent, distinct⟩
      rcases List.mem_cons.mp mem with first | later
      · cases first
        exact ⟨text, rfl, reads.held⟩
      · rcases loadEntries_held read distinct later with ⟨other, rfl, held⟩
        have apart : text ≠ other := by
          rintro rfl
          exact absent (Entries.mem_keys_iff.mpr ⟨value, later⟩)
        exact ⟨other, rfl, held.step reads apart⟩

/-- Of what is not reported, the group keeps everything. -/
theorem HeldEntry.keeps {location : List String} {group : Group} {key : String} {value : Value}
    (held : HeldEntry location group key value) (silent : PlacedEntry.event? ⟨location, .string key, value⟩ = none) :
    group.Keeps key value := by
  cases held with
  | directory kept => exact .directory kept
  | command kept => exact .command kept
  | passedOver value reserved notKept =>
      by_cases derived : key ∈ derivedAttributeKeys <;> simp [PlacedEntry.event?, derived, reserved, notKept] at silent
  | child unreserved found reads => exact .child unreserved found (Node.standsFor_of_loadNode reads)

/-- Of what is kept, nothing is reported. -/
theorem Group.Keeps.silent {group : Group} {key : String} {value : Value} (keeps : group.Keeps key value)
    (location : List String) : PlacedEntry.event? ⟨location, .string key, value⟩ = none := by
  cases keeps with
  | directory _ => exact PlacedEntry.event?_of_kept (by decide)
  | command _ => exact PlacedEntry.event?_of_kept (by decide)
  | child unreserved _ _ => exact PlacedEntry.event?_of_unreserved unreserved

/-- Each mapping that is reached was read at its path, into the group that is found there. -/
theorem Group.follow_of_reaches {entries reached : Entries} {path : List String}
    (reaches : entries.Reaches path reached) {location : List String} {group : Group}
    (loads : (loadEntries location entries).result = .ok group) (distinct : entries.keys.Nodup)
    (wellKeyed : entries.WellKeyed) :
    ∃ below, group.toNode.follow path = some below.toNode ∧
      (loadEntries (location ++ path) reached).result = .ok below ∧ reached.keys.Nodup := by
  -- on the way down the location grows at its end and the path shrinks at its front
  induction reaches generalizing location group with
  | here entries => exact ⟨group, rfl, by simpa using loads, distinct⟩
  | @enter _ inner reached key path there unreserved _ ih =>
      have innerWellKeyed : (Value.mapping inner).WellKeyed :=
        wellKeyed.of_mem_values (List.mem_map_of_mem there)
      rcases loadEntries_held loads distinct there with ⟨text, same, held⟩
      obtain rfl := Value.string.inj same
      cases held with
      | passedOver _ reserved _ => simp [unreserved] at reserved
      | child _ found reads =>
          simp only [loadNode, Loaded.map_result_eq_ok] at reads
          rcases reads with ⟨child, reads, rfl⟩
          rcases ih reads innerWellKeyed.1 innerWellKeyed.2 with ⟨below, follows, read, distinct⟩
          refine ⟨below, ?_, by simpa using read, distinct⟩
          rw [← follows]
          simp [Group.toNode, Node.follow, found]

/-!
### The top level
-/

theorem Entries.documentEntries_cons (key value : Value) (rest : Entries) :
    (Entries.cons key value rest).documentEntries = topLevelEntries (key, value) ++ rest.documentEntries := rfl

theorem Entries.topLevel_mem_documentEntries {entries : Entries} {key value : Value} :
    .topLevel key value ∈ entries.documentEntries ↔ (key, value) ∈ entries.toList := by
  simp only [documentEntries, List.mem_flatMap, topLevelEntries, List.mem_cons]
  constructor
  · rintro ⟨⟨other, held⟩, mem, same | below⟩
    · cases same
      exact mem
    · split at below <;> simp at below
  · intro mem
    exact ⟨_, mem, .inl rfl⟩

theorem Entries.placed_mem_documentEntries {entries : Entries} {entry : PlacedEntry} :
    .placed entry ∈ entries.documentEntries ↔
      ∃ units reached, (.string "units", .mapping units) ∈ entries.toList ∧
        units.Reaches entry.location reached ∧ (entry.key, entry.value) ∈ reached.toList := by
  simp only [documentEntries, List.mem_flatMap, topLevelEntries, List.mem_cons, reduceCtorEq, false_or]
  constructor
  · rintro ⟨⟨key, value⟩, mem, below⟩
    by_cases isUnits : key = .string "units"
    · subst isUnits
      rw [if_pos rfl, List.mem_map_of_injective fun _ _ => DocumentEntry.placed.inj] at below
      rcases Value.reaches_of_mem_placed below with ⟨units, path, reached, rfl, reaches, located, found⟩
      rw [List.nil_append] at located
      exact ⟨units, reached, mem, located ▸ reaches, found⟩
    · simp [isUnits] at below
  · rintro ⟨units, reached, mem, reaches, found⟩
    refine ⟨_, mem, ?_⟩
    rw [if_pos rfl]
    exact List.mem_map_of_mem (Entries.mem_placed_iff.mpr ⟨_, reached, reaches, rfl, found⟩)

theorem loadUnits_events {value : Value} {units : Group} (loads : (loadUnits value).result = .ok units) :
    (loadUnits value).events = (value.placed []).filterMap PlacedEntry.event? := by
  cases value with
  | mapping entries => exact loadEntries_events loads
  | _ => rfl

/-- What is reported of the top level is what is reported of its entries and of those below them, in order. -/
theorem loadTopLevel_events {found : Parts} :
    ∀ {entries : Entries} {parts : Parts}, (loadTopLevel parts entries).result = .ok found →
      (loadTopLevel parts entries).events = entries.documentEntries.filterMap DocumentEntry.event?
  | .nil, _, _ => rfl
  | .cons _ _ _, _, loads => by
      rcases loadTopLevel_cons_reads loads with ⟨text, next, own, rfl, reads, further, events⟩
      rw [events, loadTopLevel_events further, Entries.documentEntries_cons, List.filterMap_append]
      congr 1
      cases reads with
      | units reads =>
          rw [loadUnits_events reads, topLevelEntries, if_pos rfl]
          simp [DocumentEntry.event?, List.filterMap_map, Function.comp_def]
      | options reads => simp [topLevelEntries, DocumentEntry.event?]
      | unknown value notUnits notOptions => simp [topLevelEntries, DocumentEntry.event?, notUnits, notOptions]

/-- What an entry of the top level has become: one of the parts, or it is passed over. -/
inductive HeldTopLevel (parts : Parts) : String → Value → Prop where
  | units {value : Value} {units : Group} (found : parts.units = some units)
      (reads : (loadUnits value).result = .ok units) : HeldTopLevel parts "units" value
  | options {value : Value} {options : Options} (found : parts.options = some options)
      (reads : (loadOptions value).result = .ok options) : HeldTopLevel parts "options" value
  | passedOver {key : String} (value : Value) (notUnits : key ≠ "units") (notOptions : key ≠ "options") :
      HeldTopLevel parts key value

theorem ReadsTopLevel.held {parts next : Parts} {key : String} {value : Value} {own : List Event}
    (reads : ReadsTopLevel parts key value next own) : HeldTopLevel next key value := by
  cases reads with
  | units reads => exact .units rfl reads
  | options reads => exact .options rfl reads
  | unknown value notUnits notOptions => exact .passedOver value notUnits notOptions

theorem HeldTopLevel.step {parts next : Parts} {key other : String} {value held : Value} {own : List Event}
    (holds : HeldTopLevel parts other held) (reads : ReadsTopLevel parts key value next own) (apart : key ≠ other) :
    HeldTopLevel next other held := by
  cases holds with
  | units found readUnits =>
      cases reads with
      | units _ => contradiction
      | _ => exact .units found readUnits
  | options found readOptions =>
      cases reads with
      | options _ => contradiction
      | _ => exact .options found readOptions
  | passedOver held notUnits notOptions => exact .passedOver held notUnits notOptions

theorem HeldTopLevel.units_read {parts : Parts} {key : String} {value : Value} (holds : HeldTopLevel parts key value)
    (isUnits : key = "units") : ∃ units, parts.units = some units ∧ (loadUnits value).result = .ok units := by
  cases holds with
  | units found reads => exact ⟨_, found, reads⟩
  | options _ _ => simp at isUnits
  | passedOver _ notUnits _ => exact absurd isUnits notUnits

/-- What has been found stays as long as its key does not come again. -/
theorem HeldTopLevel.run {found : Parts} {key : String} {value : Value} :
    ∀ {entries : Entries} {parts : Parts}, HeldTopLevel parts key value → .string key ∉ entries.keys →
      (loadTopLevel parts entries).result = .ok found → HeldTopLevel found key value
  | .nil, _, holds, _, loads => by
      obtain rfl := Except.ok.inj loads
      exact holds
  | .cons _ _ _, _, holds, absent, loads => by
      rcases loadTopLevel_cons_reads loads with ⟨text, next, own, rfl, reads, further, -⟩
      rcases List.ne_and_not_mem_of_not_mem_cons absent with ⟨apart, absent⟩
      have other : text ≠ key := by
        rintro rfl
        exact apart rfl
      exact (holds.step reads other).run absent further

/-- All entries of the top level are passed over or held by the parts. -/
theorem loadTopLevel_held {found : Parts} {key value : Value} :
    ∀ {entries : Entries} {parts : Parts}, (loadTopLevel parts entries).result = .ok found →
      entries.keys.Nodup → (key, value) ∈ entries.toList →
        ∃ text, key = .string text ∧ HeldTopLevel found text value
  | .cons _ _ _, _, loads, distinct, mem => by
      rcases loadTopLevel_cons_reads loads with ⟨text, next, own, rfl, reads, further, -⟩
      rcases List.nodup_cons.mp distinct with ⟨absent, distinct⟩
      rcases List.mem_cons.mp mem with first | later
      · cases first
        exact ⟨text, rfl, reads.held.run absent further⟩
      · exact loadTopLevel_held further distinct later

theorem topLevelEntries_path {top : Value × Value} {entry : DocumentEntry} (mem : entry ∈ topLevelEntries top) :
    ∃ further, entry.path = top.1 :: further := by
  rcases List.mem_cons.mp mem with rfl | below
  · exact ⟨[], rfl⟩
  · split at below
    · rename_i isUnits
      rcases List.mem_map.mp below with ⟨placed, -, rfl⟩
      exact ⟨placed.path, by rw [DocumentEntry.path, isUnits]⟩
    · simp at below

theorem nodup_topLevelEntries (key : Value) {value : Value} (wellKeyed : value.WellKeyed) :
    ((topLevelEntries (key, value)).map DocumentEntry.path).Nodup := by
  have below : (((value.placed []).map DocumentEntry.placed).map DocumentEntry.path).Nodup := by
    rw [List.map_map]
    have paths : DocumentEntry.path ∘ DocumentEntry.placed = (.string "units" :: ·) ∘ PlacedEntry.path := rfl
    rw [paths, ← List.map_map]
    exact List.Nodup.map List.cons_injective (Value.nodup_placed [] wellKeyed)
  rw [topLevelEntries]
  split
  · refine List.nodup_cons.mpr ⟨?_, below⟩
    simp [DocumentEntry.path, PlacedEntry.path]
  · simp

/-- The entries of a document are told apart by the keys on the way to them. -/
theorem Entries.nodup_documentEntries :
    ∀ {entries : Entries}, entries.keys.Nodup → entries.WellKeyed →
      (entries.documentEntries.map DocumentEntry.path).Nodup
  | .nil, _, _ => List.nodup_nil
  | .cons key value rest, distinct, ⟨_, wellKeyed, others⟩ => by
      rcases List.nodup_cons.mp distinct with ⟨absent, distinctRest⟩
      rw [documentEntries_cons, List.map_append]
      apply List.Nodup.append (nodup_topLevelEntries key wellKeyed) (nodup_documentEntries distinctRest others)
      intro path here later
      rcases List.mem_map.mp here with ⟨entry, inFirst, rfl⟩
      rcases List.mem_map.mp later with ⟨other, inRest, same⟩
      rcases List.mem_flatMap.mp inRest with ⟨top, isTop, inTop⟩
      rcases topLevelEntries_path inFirst with ⟨further, path⟩
      rcases topLevelEntries_path inTop with ⟨more, otherPath⟩
      rw [path, otherPath, List.cons.injEq] at same
      exact absent (same.1 ▸ List.mem_map_of_mem isTop)

/-!
### Each event announces one entry
-/

/-- The event that is reported of an entry is about it and announces it. -/
theorem DocumentEntry.announcedBy_of_event? {entry : DocumentEntry} {event : Event}
    (reported : entry.event? = some event) : event.path? = some entry.path ∧ entry.AnnouncedBy event := by
  cases entry with
  | topLevel key value =>
      cases key with
      | string key =>
          simp only [event?] at reported
          by_cases isPart : key = "units" ∨ key = "options"
          · simp [isPart] at reported
          · rw [if_neg isPart] at reported
            obtain rfl := Option.some.inj reported
            exact ⟨rfl, not_or.mp isPart, rfl, rfl⟩
      | _ => simp [event?] at reported
  | placed entry =>
      rcases entry with ⟨location, key, value⟩
      cases key with
      | string key =>
          simp only [event?, PlacedEntry.event?] at reported
          by_cases derived : key ∈ derivedAttributeKeys
          · rw [if_pos derived] at reported
            obtain rfl := Option.some.inj reported
            have reserved := isReservedKey_of_mem_derived derived
            exact ⟨rfl, ⟨reserved, not_mem_kept_of_mem_derived derived⟩, (if_pos derived).symm, rfl⟩
          · rw [if_neg derived] at reported
            by_cases unknown : isReservedKey key = true ∧ key ∉ keptAttributeKeys
            · rw [if_pos unknown] at reported
              obtain rfl := Option.some.inj reported
              exact ⟨rfl, unknown, (if_neg derived).symm, rfl⟩
            · simp [unknown] at reported
      | _ => simp [event?, PlacedEntry.event?] at reported

theorem DocumentEntry.eventsAbout_append (entry : DocumentEntry) (events later : List Event) :
    entry.eventsAbout (events ++ later) = entry.eventsAbout events ++ entry.eventsAbout later :=
  List.filter_append ..

/-- Where the entries have different paths, only what is reported of an entry is about it. -/
theorem DocumentEntry.eventsAbout_filterMap {entries : List DocumentEntry}
    (distinct : (entries.map DocumentEntry.path).Nodup) {entry : DocumentEntry} (mem : entry ∈ entries) :
    entry.eventsAbout (entries.filterMap event?) = entry.event?.toList := by
  have elsewhere : ∀ others : List DocumentEntry, entry.path ∉ others.map DocumentEntry.path →
      entry.eventsAbout (others.filterMap event?) = [] := by
    intro others absent
    rw [eventsAbout, List.filter_eq_nil_iff]
    intro event reported about
    rcases List.mem_filterMap.mp reported with ⟨other, inOthers, isEvent⟩
    rw [(announcedBy_of_event? isEvent).1, decide_eq_true_iff, Option.some.injEq] at about
    exact absent (about ▸ List.mem_map_of_mem inOthers)
  rcases List.append_of_mem mem with ⟨before, after, rfl⟩
  rw [List.map_append, List.map_cons, List.nodup_append] at distinct
  rcases distinct with ⟨-, distinct, apart⟩
  have notBefore : entry.path ∉ before.map DocumentEntry.path :=
    fun mem => apart _ mem _ List.mem_cons_self rfl
  have notAfter := elsewhere after (List.nodup_cons.mp distinct).1
  rw [List.filterMap_append, eventsAbout_append, elsewhere before notBefore, List.nil_append, List.filterMap_cons]
  cases reported : entry.event? with
  | none => exact notAfter
  | some event =>
      have about := (announcedBy_of_event? reported).1
      simpa [eventsAbout, about] using notAfter

/-!
### The account of a document
-/

/-- An entry is represented: an entry of the top level by one of the parts, and another one by the group that is
found at its location. -/
inductive Document.Represents (document : Document) : DocumentEntry → Prop where
  | noOptions (none : document.options = []) : Document.Represents document (.topLevel (.string "options") .null)
  | options {entries : Entries} (kept : document.options.toEntries = entries) :
      Document.Represents document (.topLevel (.string "options") (.mapping entries))
  | units {value : Value} (stands : document.units.StandsFor value) :
      Document.Represents document (.topLevel (.string "units") value)
  | placed {location : List String} {group : Group} {key : String} {value : Value}
      (there : document.units.toNode.follow location = some group.toNode) (keeps : group.Keeps key value) :
      Document.Represents document (.placed ⟨location, .string key, value⟩)

/-- Of what is represented, nothing is reported. -/
theorem Document.Represents.silent {document : Document} {entry : DocumentEntry}
    (represents : document.Represents entry) : entry.event? = none := by
  cases represents with
  | noOptions _ => rfl
  | options _ => rfl
  | units _ => rfl
  | placed there keeps => exact keeps.silent _

/-- A command that has been read was given. -/
theorem mem_of_loadEntries_command {location : List String} {text : String} :
    ∀ {entries : Entries} {group : Group}, (loadEntries location entries).result = .ok group →
      group.attributes.command = some text → (.string commandKey, .string text) ∈ entries.toList
  | .nil, _, loads, kept => by
      obtain rfl := Except.ok.inj loads
      simp at kept
  | .cons _ _ _, _, loads, kept => by
      rcases loadEntries_cons_reads loads with ⟨key, others, own, rfl, read, reads, -⟩
      cases reads with
      | command own =>
          obtain rfl := Option.some.inj kept
          exact List.mem_cons_self
      | _ => exact List.mem_cons_of_mem _ (mem_of_loadEntries_command read kept)

/-- Of what is not reported, the document represents everything. -/
theorem Document.represents_of_silent {entries : Entries} {parts : Parts} {document : Document}
    (read : (loadTopLevel {} entries).result = .ok parts) (units : parts.units = some document.units)
    (options : parts.options.getD [] = document.options) (distinct : entries.keys.Nodup)
    (wellKeyed : entries.WellKeyed) {entry : DocumentEntry} (mem : entry ∈ entries.documentEntries)
    (silent : entry.event? = none) : document.Represents entry := by
  cases entry with
  | topLevel key value =>
      rcases loadTopLevel_held read distinct (Entries.topLevel_mem_documentEntries.mp mem) with ⟨text, rfl, held⟩
      cases held with
      | units found reads =>
          obtain rfl := Option.some.inj (units.symm.trans found)
          exact .units (Group.standsFor_of_loadUnits reads)
      | options found reads =>
          rw [found, Option.getD_some] at options
          subst options
          cases value with
          | null => exact .noOptions (Except.ok.inj reads).symm
          | mapping _ => exact .options (loadOptionEntries_spec reads)
          | _ => simp [loadOptions] at reads
      | passedOver value notUnits notOptions => simp [DocumentEntry.event?, notUnits, notOptions] at silent
  | placed entry =>
      rcases entry with ⟨location, key, value⟩
      rcases Entries.placed_mem_documentEntries.mp mem with ⟨root, reached, isUnits, reaches, found⟩
      rcases loadTopLevel_held read distinct isUnits with ⟨text, same, held⟩
      rcases held.units_read (Value.string.inj same).symm with ⟨group, isFound, reads⟩
      obtain rfl := Option.some.inj (units.symm.trans isFound)
      have below : (Value.mapping root).WellKeyed := wellKeyed.of_mem_values (List.mem_map_of_mem isUnits)
      rcases Group.follow_of_reaches reaches reads below.1 below.2 with ⟨group, there, readGroup, distinct⟩
      rcases loadEntries_held readGroup distinct found with ⟨text, rfl, held⟩
      exact .placed there (held.keeps silent)

theorem Group.Keeps.command_isSome {group : Group} {key : String} {value : Value} (keeps : group.Keeps key value)
    (isCommand : key = commandKey) : group.attributes.command.isSome = true := by
  cases keeps with
  | directory _ =>
      have other : workingDirectoryKey ≠ commandKey := by decide
      contradiction
  | command kept => simp [kept]
  | child unreserved _ _ =>
      have reserved : isReservedKey commandKey = true := by decide
      simp [isCommand, reserved] at unreserved

/-- The root units carry a command exactly when they are given one. -/
theorem Document.command_isSome_iff {entries : Entries} {parts : Parts} {document : Document}
    (read : (loadTopLevel {} entries).result = .ok parts) (units : parts.units = some document.units)
    (options : parts.options.getD [] = document.options) (distinct : entries.keys.Nodup)
    (wellKeyed : entries.WellKeyed) :
    document.units.attributes.command.isSome = true ↔
      ∃ held, .placed ⟨[], .string commandKey, held⟩ ∈ entries.documentEntries := by
  constructor
  · intro isSome
    rcases Option.isSome_iff_exists.mp isSome with ⟨text, kept⟩
    rcases loadTopLevel_units read with ⟨-, none⟩ | ⟨value, root, isUnits, reads, found⟩
    · simp [none] at units
    · obtain rfl := Option.some.inj (units.symm.trans found)
      cases value with
      | mapping root =>
          have given := mem_of_loadEntries_command reads kept
          exact ⟨_, Entries.placed_mem_documentEntries.mpr ⟨root, root, isUnits, .here root, given⟩⟩
      | null =>
          rw [← Except.ok.inj reads] at kept
          simp at kept
      | _ => simp [loadUnits] at reads
  · rintro ⟨held, mem⟩
    have isKept : commandKey ∈ keptAttributeKeys := by decide
    have silent : PlacedEntry.event? ⟨[], .string commandKey, held⟩ = none :=
      PlacedEntry.event?_of_kept isKept
    cases Document.represents_of_silent read units options distinct wellKeyed mem silent with
    | placed there keeps =>
        have same := Node.group.inj (Option.some.inj there)
        rw [same.1]
        exact keeps.command_isSome rfl

/-- Nothing of a document is dropped silently. Each entry of the top level, and of each mapping that is reached from
the units, is represented and nothing is reported of it, or it is not, and exactly one event announces it. The
events have the order of the entries, one more at the end says that the root units carry a command, and there are
no others. -/
theorem Document.ofValue_accounts {value : Value} {document : Document} (wellKeyed : value.WellKeyed)
    (loads : (Document.ofValue value).result = .ok document) :
    ∃ entries, value = .mapping entries ∧
      (∀ key held, .topLevel key held ∈ entries.documentEntries ↔ (key, held) ∈ entries.toList) ∧
      (∀ entry, .placed entry ∈ entries.documentEntries ↔
        ∃ units reached, (.string "units", .mapping units) ∈ entries.toList ∧
          units.Reaches entry.location reached ∧ (entry.key, entry.value) ∈ reached.toList) ∧
      (∀ entry ∈ entries.documentEntries,
        (document.Represents entry ∧ entry.eventsAbout (Document.ofValue value).events = []) ∨
          (¬document.Represents entry ∧
            ∃ event, entry.eventsAbout (Document.ofValue value).events = [event] ∧ entry.AnnouncedBy event)) ∧
      ∃ closing,
        (Document.ofValue value).events = entries.documentEntries.filterMap DocumentEntry.event? ++ closing ∧
          ((closing = [.rootCommand] ∧ Event.rootCommand.level = .warn ∧
              ∃ held, .placed ⟨[], .string commandKey, held⟩ ∈ entries.documentEntries) ∨
            (closing = [] ∧ ∀ held, .placed ⟨[], .string commandKey, held⟩ ∉ entries.documentEntries)) := by
  rcases Document.ofValue_reads loads with ⟨entries, parts, rfl, read, units, options, events⟩
  rw [loadTopLevel_events read] at events
  have carries := Document.command_isSome_iff read units options wellKeyed.1 wellKeyed.2
  refine ⟨entries, rfl, fun _ _ => Entries.topLevel_mem_documentEntries,
    fun _ => Entries.placed_mem_documentEntries, ?_, _, events, ?_⟩
  · intro entry mem
    have about : entry.eventsAbout (Document.ofValue (.mapping entries)).events = entry.event?.toList := by
      have distinct := Entries.nodup_documentEntries wellKeyed.1 wellKeyed.2
      rw [events, DocumentEntry.eventsAbout_append, DocumentEntry.eventsAbout_filterMap distinct mem]
      split <;> simp [DocumentEntry.eventsAbout, Event.path?]
    rw [about]
    cases reported : entry.event? with
    | none =>
        exact .inl ⟨Document.represents_of_silent read units options wellKeyed.1 wellKeyed.2 mem reported, rfl⟩
    | some event =>
        refine .inr ⟨fun represents => ?_, event, rfl, (DocumentEntry.announcedBy_of_event? reported).2⟩
        simp [represents.silent] at reported
  · by_cases isSome : document.units.attributes.command.isSome = true
    · exact .inl ⟨if_pos isSome, rfl, carries.mp isSome⟩
    · exact .inr ⟨if_neg isSome, fun held mem => isSome (carries.mpr ⟨held, mem⟩)⟩

/-- A top level with a key that is unknown, and units of which one has a derived attribute and an unknown one. -/
def Entries.remarked : Entries :=
  .cons (.string "note") (.bool true) <|
    .cons (.string "options") (.mapping (.cons (.string "sep") (.string "-") .nil)) <|
      .cons (.string "units") (.mapping <|
        .cons (.string "@command") (.string "run") <|
          .cons (.string "a") (.mapping <|
            .cons (.string "@qualifiedName") (.string "b") <|
              .cons (.string "c") (.string "make") <|
                .cons (.string "x@y") .null .nil)
          .nil)
      .nil

/-- One entry that is represented, one that is announced, and all that is reported. -/
theorem Document.ofValue_accounts_remarked :
    (Value.mapping .remarked).WellKeyed ∧ ∃ document,
      (Document.ofValue (.mapping .remarked)).result = .ok document ∧
        document.Represents (.placed ⟨["a"], .string "c", .string "make"⟩) ∧
        ¬document.Represents (.placed ⟨["a"], .string "x@y", .null⟩) ∧
        (Document.ofValue (.mapping .remarked)).events =
          [.unknownTopLevelKey "note", .derivedAttribute ["a"] "@qualifiedName", .unknownAttribute ["a"] "x@y",
            .rootCommand] := by
  have wellKeyed : (Value.mapping .remarked).WellKeyed := by decide
  have events : (Document.ofValue (.mapping .remarked)).events =
      [.unknownTopLevelKey "note", .derivedAttribute ["a"] "@qualifiedName", .unknownAttribute ["a"] "x@y",
        .rootCommand] := by decide
  have loads : ∃ document, (Document.ofValue (.mapping .remarked)).result = .ok document := ⟨_, rfl⟩
  rcases loads with ⟨document, loads⟩
  rcases Document.ofValue_accounts wellKeyed loads with ⟨entries, same, -, -, accounts, -⟩
  obtain rfl := Value.mapping.inj same
  refine ⟨wellKeyed, document, loads, ?_, ?_, events⟩
  · rcases accounts (.placed ⟨["a"], .string "c", .string "make"⟩) (by decide) with
      ⟨represents, -⟩ | ⟨-, event, about, -⟩
    · exact represents
    · have silent : DocumentEntry.eventsAbout (.placed ⟨["a"], .string "c", .string "make"⟩)
          (Document.ofValue (.mapping .remarked)).events = [] := by decide
      rw [silent] at about
      contradiction
  · rcases accounts (.placed ⟨["a"], .string "x@y", .null⟩) (by decide) with ⟨-, about⟩ | ⟨unrepresented, -⟩
    · rw [events] at about
      contradiction
    · exact unrepresented

end ShellUnits
