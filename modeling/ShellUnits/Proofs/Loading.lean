import Mathlib.Data.List.Nodup
import ShellUnits.Document.Load
import ShellUnits.Proofs.Derivation
import ShellUnits.Value.WellKeyed

/-!
What loading gives, and how a written document is read back.

The loader drops derived attributes and keeps reserved keys out of the children. So what it gives has no
derived attributes and no reserved keys, and of what is written only the derived attributes are lost,
provided that no key and no text is taken for something else.

All that is known of loading comes from what reading one entry can do: what it makes of the entries that are read
without it, and what it reports.

Main definitions: `ReadsEntry`, `ReadsTopLevel`.
Main statements: `loadEntries_cons_reads`, `loadTopLevel_cons_reads`, `loadEntries_spec`, `Document.ofValue_reads`,
`Document.ofValue_spec`, `loadEntries_toEntries`, `Document.ofValue_toValue`.
-/

namespace ShellUnits

/-!
### Results and reports of loading, step by step
-/

namespace Loaded

variable {α β : Type}

@[simp] theorem ok_result (value : α) : (Loaded.ok value).result = .ok value := rfl

@[simp] theorem fail_result (failure : LoadError) : (Loaded.fail failure : Loaded α).result = .error failure := rfl

@[simp] theorem report_result (event : Event) (next : Loaded α) : (next.report event).result = next.result := rfl

@[simp] theorem bind_result_eq_ok {first : Loaded α} {next : α → Loaded β} {value : β} :
    (first.bind next).result = .ok value ↔
      ∃ found, first.result = .ok found ∧ (next found).result = .ok value := by
  unfold Loaded.bind
  cases first.result <;> simp

@[simp] theorem ok_bind (value : α) (next : α → Loaded β) : (Loaded.ok value).bind next = next value := rfl

@[simp] theorem map_result_eq_ok {loaded : Loaded α} {f : α → β} {value : β} :
    (loaded.map f).result = .ok value ↔ ∃ found, loaded.result = .ok found ∧ f found = value := by
  unfold Loaded.map
  cases loaded.result <;> simp [Except.map]

@[simp] theorem ok_events (value : α) : (Loaded.ok value).events = [] := rfl

@[simp] theorem report_events (event : Event) (next : Loaded α) : (next.report event).events = event :: next.events :=
  rfl

@[simp] theorem map_events (f : α → β) (loaded : Loaded α) : (loaded.map f).events = loaded.events := rfl

theorem bind_events_of_ok {first : Loaded α} {value : α} (read : first.result = .ok value) (next : α → Loaded β) :
    (first.bind next).events = first.events ++ (next value).events := by
  unfold Loaded.bind
  rw [read]

end Loaded

@[simp] theorem stringKey_result_eq_ok {location : List String} {key : String} {value : Value} :
    (stringKey location value).result = .ok key ↔ value = .string key := by
  cases value <;> simp [stringKey]

/-!
### Which attributes are kept
-/

/-- The attributes that are kept; the derived and unknown ones are passed over. -/
def keptAttributeKeys : List String := [workingDirectoryKey, commandKey]

/-- The attributes that are derived again. -/
def derivedAttributeKeys : List String := [qualifiedNameKey, effectiveWorkingDirectoryKey]

theorem isReservedKey_of_mem_kept : ∀ {key : String}, key ∈ keptAttributeKeys → isReservedKey key = true := by
  decide

theorem isReservedKey_of_mem_derived : ∀ {key : String}, key ∈ derivedAttributeKeys → isReservedKey key = true := by
  decide

theorem not_mem_kept_of_mem_derived : ∀ {key : String}, key ∈ derivedAttributeKeys → key ∉ keptAttributeKeys := by
  decide

/-!
### Reading one entry of a group
-/

/-- All that reading one entry of the group at this location can do to what the entries behind it are read into:
which group it becomes, and what is reported meanwhile. -/
inductive ReadsEntry (location : List String) (others : Group) : String → Value → Group → List Event → Prop where
  | directory (text : String) :
      ReadsEntry location others workingDirectoryKey (.string text) (others.withDirectory text) []
  | command (text : String) : ReadsEntry location others commandKey (.string text) (others.withCommand text) []
  | derived {key : String} (value : Value) (derived : key ∈ derivedAttributeKeys) :
      ReadsEntry location others key value others [.derivedAttribute location key]
  | unknown {key : String} (value : Value) (reserved : isReservedKey key = true) (notKept : key ∉ keptAttributeKeys)
      (notDerived : key ∉ derivedAttributeKeys) :
      ReadsEntry location others key value others [.unknownAttribute location key]
  | child {key : String} {value : Value} {node : Node} (unreserved : isReservedKey key = false)
      (reads : (loadNode (location ++ [key]) value).result = .ok node) :
      ReadsEntry location others key value (others.withFirstChild key node)
        (loadNode (location ++ [key]) value).events

theorem attributeText_result_eq_ok {location : List String} {key text : String} {value : Value} :
    (attributeText location key value).result = .ok text ↔ value = .string text := by
  cases value <;> simp [attributeText]

/-- An entry under a reserved key is read as an attribute. -/
theorem loadEntries_reserved {location : List String} {rest : Entries} {key : String}
    (reserved : isReservedKey key = true) (value : Value) :
    loadEntries location (.cons (.string key) value rest) =
      loadAttribute location key value (loadEntries location rest) := by
  simp only [loadEntries, stringKey, Loaded.ok_bind, reserved, if_true]

theorem loadAttribute_reads {location : List String} {key : String} {value : Value} {rest : Loaded Group}
    {group : Group} (reserved : isReservedKey key = true)
    (loads : (loadAttribute location key value rest).result = .ok group) :
    ∃ others own, rest.result = .ok others ∧ ReadsEntry location others key value group own ∧
      (loadAttribute location key value rest).events = own ++ rest.events := by
  unfold loadAttribute at loads ⊢
  by_cases isDirectory : key = workingDirectoryKey
  · simp only [isDirectory, if_true, Loaded.bind_result_eq_ok, attributeText_result_eq_ok,
      Loaded.map_result_eq_ok] at loads ⊢
    rcases loads with ⟨text, rfl, others, read, rfl⟩
    exact ⟨others, [], read, .directory text, rfl⟩
  · by_cases isCommand : key = commandKey
    · have other : commandKey ≠ workingDirectoryKey := by decide
      simp only [isCommand, other, if_true, if_false, Loaded.bind_result_eq_ok, attributeText_result_eq_ok,
        Loaded.map_result_eq_ok] at loads ⊢
      rcases loads with ⟨text, rfl, others, read, rfl⟩
      exact ⟨others, [], read, .command text, rfl⟩
    · rw [if_neg isDirectory, if_neg isCommand] at loads ⊢
      by_cases isDerived : key = qualifiedNameKey ∨ key = effectiveWorkingDirectoryKey
      · rw [if_pos isDerived] at loads ⊢
        exact ⟨group, _, loads, .derived value (by simpa [derivedAttributeKeys] using isDerived), rfl⟩
      · rw [if_neg isDerived] at loads ⊢
        have notKept : key ∉ keptAttributeKeys := by simp [keptAttributeKeys, isDirectory, isCommand]
        exact ⟨group, _, loads, .unknown value reserved notKept (by simpa [derivedAttributeKeys] using isDerived), rfl⟩

/-- Where a group is read, its first entry is read in one of these ways, and the others by themselves. -/
theorem loadEntries_cons_reads {location : List String} {key value : Value} {rest : Entries} {group : Group}
    (loads : (loadEntries location (.cons key value rest)).result = .ok group) :
    ∃ text others own, key = .string text ∧ (loadEntries location rest).result = .ok others ∧
      ReadsEntry location others text value group own ∧
      (loadEntries location (.cons key value rest)).events = own ++ (loadEntries location rest).events := by
  have isString : ∃ text, key = .string text := by
    simp only [loadEntries, Loaded.bind_result_eq_ok, stringKey_result_eq_ok] at loads
    rcases loads with ⟨text, isString, -⟩
    exact ⟨text, isString⟩
  rcases isString with ⟨text, rfl⟩
  by_cases reserved : isReservedKey text = true
  · rw [loadEntries_reserved reserved] at loads ⊢
    rcases loadAttribute_reads reserved loads with ⟨others, own, read, reads, events⟩
    exact ⟨text, others, own, rfl, read, reads, events⟩
  · have unreserved : isReservedKey text = false := by simpa using reserved
    simp only [loadEntries, stringKey, Loaded.ok_bind, unreserved, Bool.false_eq_true, if_false] at loads ⊢
    simp only [Loaded.bind_result_eq_ok, Loaded.map_result_eq_ok] at loads
    rcases loads with ⟨node, readNode, others, read, rfl⟩
    refine ⟨text, others, _, rfl, read, .child unreserved readNode, ?_⟩
    rw [Loaded.bind_events_of_ok readNode, Loaded.map_events]

/-- An attribute leaves the children as they are and derives nothing, and any other entry puts a child in front of
them. -/
theorem loadEntries_cons {location : List String} {key value : Value} {rest : Entries} {group : Group}
    (loads : (loadEntries location (.cons key value rest)).result = .ok group) :
    ∃ text others, key = .string text ∧ (loadEntries location rest).result = .ok others ∧
      ((isReservedKey text = true ∧ group.children = others.children ∧
          (others.withoutDerived = others → group.withoutDerived = group)) ∨
        (isReservedKey text = false ∧ ∃ node, (loadNode (location ++ [text]) value).result = .ok node ∧
          group = others.withFirstChild text node)) := by
  rcases loadEntries_cons_reads loads with ⟨text, others, own, isKey, read, reads, -⟩
  refine ⟨text, others, isKey, read, ?_⟩
  cases reads with
  | directory own => exact .inl ⟨by decide, rfl, fun plain => congrArg (Group.withDirectory own) plain⟩
  | command own => exact .inl ⟨by decide, rfl, fun plain => congrArg (Group.withCommand own) plain⟩
  | derived value derived => exact .inl ⟨isReservedKey_of_mem_derived derived, rfl, id⟩
  | unknown value reserved _ _ => exact .inl ⟨reserved, rfl, id⟩
  | child unreserved readNode => exact .inr ⟨unreserved, _, readNode, rfl⟩

/-!
### Reading one entry of the top level
-/

/-- All that reading one entry of the top level can do to the parts that have been found, and what is reported
meanwhile. -/
inductive ReadsTopLevel (parts : Parts) : String → Value → Parts → List Event → Prop where
  | units {value : Value} {units : Group} (reads : (loadUnits value).result = .ok units) :
      ReadsTopLevel parts "units" value { parts with units := some units } (loadUnits value).events
  | options {value : Value} {options : Options} (reads : (loadOptions value).result = .ok options) :
      ReadsTopLevel parts "options" value { parts with options := some options } []
  | unknown {key : String} (value : Value) (notUnits : key ≠ "units") (notOptions : key ≠ "options") :
      ReadsTopLevel parts key value parts [.unknownTopLevelKey key]

theorem loadOptionEntries_events : ∀ entries : Entries, (loadOptionEntries entries).events = []
  | .nil => rfl
  | .cons (.string _) _ rest => loadOptionEntries_events rest
  | .cons .null _ _ => rfl
  | .cons (.bool _) _ _ => rfl
  | .cons (.number _) _ _ => rfl
  | .cons (.sequence _) _ _ => rfl
  | .cons (.mapping _) _ _ => rfl
  | .cons (.tagged _ _) _ _ => rfl

theorem loadOptions_events (value : Value) : (loadOptions value).events = [] := by
  cases value with
  | mapping entries => exact loadOptionEntries_events entries
  | _ => rfl

/-- Where the top level is read, its first entry is read in one of these ways, and the others go on from there. -/
theorem loadTopLevel_cons_reads {parts found : Parts} {key value : Value} {rest : Entries}
    (loads : (loadTopLevel parts (.cons key value rest)).result = .ok found) :
    ∃ text next own, key = .string text ∧ ReadsTopLevel parts text value next own ∧
      (loadTopLevel next rest).result = .ok found ∧
      (loadTopLevel parts (.cons key value rest)).events = own ++ (loadTopLevel next rest).events := by
  have isString : ∃ text, key = .string text := by
    simp only [loadTopLevel, Loaded.bind_result_eq_ok, stringKey_result_eq_ok] at loads
    rcases loads with ⟨text, isString, -⟩
    exact ⟨text, isString⟩
  rcases isString with ⟨text, rfl⟩
  simp only [loadTopLevel, stringKey, Loaded.ok_bind] at loads ⊢
  by_cases isUnits : text = "units"
  · subst isUnits
    rw [if_pos rfl] at loads ⊢
    rcases Loaded.bind_result_eq_ok.mp loads with ⟨units, reads, loads⟩
    exact ⟨_, _, _, rfl, .units reads, loads, Loaded.bind_events_of_ok reads _⟩
  · by_cases isOptions : text = "options"
    · subst isOptions
      rw [if_neg isUnits, if_pos rfl] at loads ⊢
      rcases Loaded.bind_result_eq_ok.mp loads with ⟨options, reads, loads⟩
      refine ⟨_, _, _, rfl, .options reads, loads, ?_⟩
      rw [Loaded.bind_events_of_ok reads, loadOptions_events]
    · rw [if_neg isUnits, if_neg isOptions] at loads ⊢
      exact ⟨text, parts, _, rfl, .unknown value isUnits isOptions, loads, rfl⟩

/-!
### What loading gives
-/

mutual

theorem loadNode_spec {location : List String} {node : Node} :
    ∀ {value : Value}, (loadNode location value).result = .ok node →
      node.withoutDerived = node ∧ node.Everywhere fun key _ => isReservedKey key = false
  | .null, loads => by
      obtain rfl := Except.ok.inj loads
      exact ⟨rfl, trivial⟩
  | .string text, loads => by
      obtain rfl := Except.ok.inj loads
      unfold Node.ofText
      split <;> exact ⟨rfl, trivial⟩
  | .number _, loads => by
      obtain rfl := Except.ok.inj loads
      exact ⟨rfl, trivial⟩
  | .bool _, loads => by
      obtain rfl := Except.ok.inj loads
      exact ⟨rfl, trivial⟩
  | .mapping entries, loads => by
      simp only [loadNode, Loaded.map_result_eq_ok] at loads
      obtain ⟨group, read, rfl⟩ := loads
      obtain ⟨plain, unreserved⟩ := loadEntries_spec read
      exact ⟨congrArg Group.toNode plain, unreserved⟩
  | .sequence _, loads => by simp [loadNode] at loads
  | .tagged _ _, loads => by simp [loadNode] at loads

/-- A group that has been loaded has no derived attributes and no reserved keys, at any depth. -/
theorem loadEntries_spec {location : List String} {group : Group} :
    ∀ {entries : Entries}, (loadEntries location entries).result = .ok group →
      group.withoutDerived = group ∧ group.children.Unreserved
  | .nil, loads => by
      obtain rfl := Except.ok.inj loads
      exact ⟨rfl, trivial⟩
  | .cons _ value rest, loads => by
      obtain ⟨key, others, -, read, passed | child⟩ := loadEntries_cons loads
      · obtain ⟨-, children, plain⟩ := passed
        obtain ⟨othersPlain, unreserved⟩ := loadEntries_spec read
        exact ⟨plain othersPlain, children ▸ unreserved⟩
      · obtain ⟨unreservedKey, node, readNode, rfl⟩ := child
        obtain ⟨nodePlain, below⟩ := loadNode_spec readNode
        obtain ⟨othersPlain, after⟩ := loadEntries_spec read
        refine ⟨?_, unreservedKey, below, after⟩
        have first : (others.withFirstChild key node).withoutDerived =
            others.withoutDerived.withFirstChild key node.withoutDerived := rfl
        rw [first, nodePlain, othersPlain]

end

/-- The entries of options that have been loaded are what they were loaded from. -/
theorem loadOptionEntries_spec {options : Options} :
    ∀ {entries : Entries}, (loadOptionEntries entries).result = .ok options → options.toEntries = entries
  | .nil, loads => by
      obtain rfl := Except.ok.inj loads
      rfl
  | .cons _ value rest, loads => by
      simp only [loadOptionEntries, Loaded.bind_result_eq_ok, stringKey_result_eq_ok,
        Loaded.map_result_eq_ok] at loads
      obtain ⟨key, rfl, others, read, rfl⟩ := loads
      rw [Options.toEntries, loadOptionEntries_spec read]

theorem Options.keys_toEntries (options : Options) :
    options.toEntries.keys = (Keyed.keys options).map Value.string := by
  induction options with
  | nil => rfl
  | cons entry rest ih =>
      obtain ⟨key, value⟩ := entry
      simpa [Options.toEntries, Entries.keys, Entries.toList, Keyed.keys] using ih

/-- Options have no key twice, as the mapping that they were loaded from. -/
theorem loadOptions_distinct {options : Options} {value : Value} (wellKeyed : value.WellKeyed)
    (loads : (loadOptions value).result = .ok options) : Keyed.Distinct options := by
  unfold loadOptions at loads
  split at loads
  · obtain rfl := Except.ok.inj loads
    exact List.nodup_nil
  · have keys := wellKeyed.1
    rw [← loadOptionEntries_spec loads, Options.keys_toEntries] at keys
    exact List.Nodup.of_map _ keys
  · simp at loads

theorem loadUnits_spec {units : Group} {value : Value} (loads : (loadUnits value).result = .ok units) :
    units.withoutDerived = units ∧ units.children.Unreserved := by
  unfold loadUnits at loads
  split at loads
  · obtain rfl := Except.ok.inj loads
    exact ⟨rfl, trivial⟩
  · exact loadEntries_spec loads
  · simp at loads

/-- The values that belong to the keys, in order. -/
def Entries.values (entries : Entries) : List Value :=
  entries.toList.map Prod.snd

theorem Entries.WellKeyed.of_mem_values {value : Value} :
    ∀ {entries : Entries}, entries.WellKeyed → value ∈ entries.values → value.WellKeyed
  | .nil, _, mem => by simp [Entries.values, Entries.toList] at mem
  | .cons _ first rest, ⟨_, wellKeyed, others⟩, mem => by
      simp only [Entries.values, Entries.toList, List.map_cons, List.mem_cons] at mem
      rcases mem with rfl | later
      · exact wellKeyed
      · exact others.of_mem_values later

/-- Where the parts of a document come from: each was there before, or was read from one of the values. -/
structure Parts.ReadFrom (values : List Value) (before found : Parts) : Prop where
  units : found.units = before.units ∨
    ∃ value ∈ values, ∃ units, (loadUnits value).result = .ok units ∧ found.units = some units
  options : found.options = before.options ∨
    ∃ value ∈ values, ∃ options, (loadOptions value).result = .ok options ∧ found.options = some options

theorem Parts.ReadFrom.cons {values : List Value} {before found : Parts} (value : Value)
    (read : Parts.ReadFrom values before found) : Parts.ReadFrom (value :: values) before found where
  units := read.units.imp_right fun ⟨value, mem, rest⟩ => ⟨value, List.mem_cons_of_mem _ mem, rest⟩
  options := read.options.imp_right fun ⟨value, mem, rest⟩ => ⟨value, List.mem_cons_of_mem _ mem, rest⟩

theorem loadTopLevel_readFrom {found : Parts} :
    ∀ {entries : Entries} {parts : Parts}, (loadTopLevel parts entries).result = .ok found →
      Parts.ReadFrom entries.values parts found
  | .nil, _, loads => by
      obtain rfl := Except.ok.inj loads
      exact ⟨.inl rfl, .inl rfl⟩
  | .cons _ value _, _, loads => by
      rcases loadTopLevel_cons_reads loads with ⟨key, next, own, -, reads, further, -⟩
      have later := (loadTopLevel_readFrom further).cons value
      cases reads with
      | @units _ units reads =>
          refine ⟨.inr ?_, later.options⟩
          rcases later.units with same | fromRest
          · exact ⟨value, List.mem_cons_self, units, reads, same⟩
          · exact fromRest
      | @options _ options reads =>
          refine ⟨later.units, .inr ?_⟩
          rcases later.options with same | fromRest
          · exact ⟨value, List.mem_cons_self, options, reads, same⟩
          · exact fromRest
      | unknown => exact later

/-- The parts make a document exactly when there are units. -/
theorem Parts.toDocument_result (parts : Parts) :
    parts.toDocument.result =
      match parts.units with
      | none => .error .missingUnits
      | some units => .ok ⟨parts.options.getD [], units⟩ := by
  unfold Parts.toDocument
  cases parts.units with
  | none => rfl
  | some units =>
      simp only
      split <;> rfl

theorem Parts.toDocument_events {parts : Parts} {document : Document}
    (loads : parts.toDocument.result = .ok document) :
    parts.units = some document.units ∧ parts.options.getD [] = document.options ∧
      parts.toDocument.events = if document.units.attributes.command.isSome then [.rootCommand] else [] := by
  have result := Parts.toDocument_result parts
  rw [loads] at result
  unfold Parts.toDocument
  cases units : parts.units with
  | none => simp [units] at result
  | some group =>
      rw [units] at result
      obtain rfl := Except.ok.inj result
      refine ⟨rfl, rfl, ?_⟩
      dsimp only
      split <;> rfl

/-- A document is made of the parts that are found, and all reports but the last one come from finding them. -/
theorem Document.ofValue_reads {value : Value} {document : Document}
    (loads : (Document.ofValue value).result = .ok document) :
    ∃ entries parts, value = .mapping entries ∧ (loadTopLevel {} entries).result = .ok parts ∧
      parts.units = some document.units ∧ parts.options.getD [] = document.options ∧
        (Document.ofValue value).events = (loadTopLevel {} entries).events ++
          if document.units.attributes.command.isSome then [.rootCommand] else [] := by
  cases value with
  | mapping entries =>
      rcases Loaded.bind_result_eq_ok.mp loads with ⟨parts, read, made⟩
      rcases Parts.toDocument_events made with ⟨units, options, closing⟩
      refine ⟨entries, parts, rfl, read, units, options, ?_⟩
      rw [Document.ofValue, Loaded.bind_events_of_ok read, closing]
  | _ => simp [Document.ofValue] at loads

/-- The units of a document that has been loaded were read from one value of the top level, and its options
from another, unless there are none. -/
theorem Document.ofValue_readFrom {document : Document} {value : Value}
    (loads : (Document.ofValue value).result = .ok document) :
    ∃ entries, value = .mapping entries ∧
      (∃ units ∈ entries.values, (loadUnits units).result = .ok document.units) ∧
      (document.options = [] ∨ ∃ options ∈ entries.values, (loadOptions options).result = .ok document.options) := by
  rcases Document.ofValue_reads loads with ⟨entries, parts, rfl, read, isUnits, isOptions, -⟩
  have origin := loadTopLevel_readFrom read
  refine ⟨entries, rfl, ?_, ?_⟩
  · rcases origin.units with missing | ⟨value, mem, units, read, found⟩
    · simp [missing] at isUnits
    · obtain rfl := Option.some.inj (isUnits.symm.trans found)
      exact ⟨value, mem, read⟩
  · rcases origin.options with missing | ⟨value, mem, options, read, found⟩
    · exact .inl (by rw [← isOptions, missing]; rfl)
    · exact .inr ⟨value, mem, by rw [← isOptions, found]; exact read⟩

/-- A document that has been loaded has no derived attributes, no reserved keys and no option twice. -/
theorem Document.ofValue_spec {document : Document} {value : Value} (wellKeyed : value.WellKeyed)
    (loads : (Document.ofValue value).result = .ok document) :
    document.units.withoutDerived = document.units ∧ document.units.children.Unreserved ∧
      Keyed.Distinct document.options := by
  obtain ⟨entries, rfl, ⟨units, -, readUnits⟩, options⟩ := Document.ofValue_readFrom loads
  obtain ⟨plain, unreserved⟩ := loadUnits_spec readUnits
  refine ⟨plain, unreserved, ?_⟩
  rcases options with none | ⟨value, mem, readOptions⟩
  · rw [none]
    exact List.nodup_nil
  · exact loadOptions_distinct (wellKeyed.2.of_mem_values mem) readOptions

/-!
### Reading back what was written
-/

/-- The text that stands for the unit, if one does, is read as the unit and not as another one. -/
def Node.KeepsText : Node → Prop
  | .group _ _ => True
  | .command text => parseReference? text = none
  | .placeholder => True
  | .reference ids => parseReference? (formatReference ids) = some ids

/-- No key and no text is taken for something else when it is read. -/
def Children.Readable (children : Children) : Prop :=
  children.Everywhere fun key node => isReservedKey key = false ∧ node.KeepsText

section Attributes

variable {location : List String} {rest : Entries} {command : Option String} {children : Children}

/-- A written command is read back. -/
theorem loadEntries_command (text : Option String)
    (read : (loadEntries location rest).result = .ok ⟨{}, children⟩) :
    (loadEntries location (attributeEntry commandKey text rest)).result = .ok ⟨{ command := text }, children⟩ := by
  have reserved : isReservedKey commandKey = true := by decide
  have other : commandKey ≠ workingDirectoryKey := by decide
  cases text with
  | none => exact read
  | some text =>
      simp only [attributeEntry, loadEntries_reserved reserved, loadAttribute, other, if_false, if_true,
        attributeText, Loaded.ok_bind, Loaded.map_result_eq_ok]
      exact ⟨_, read, rfl⟩

/-- A written override is read back. -/
theorem loadEntries_directory (text : Option String)
    (read : (loadEntries location rest).result = .ok ⟨{ command }, children⟩) :
    (loadEntries location (attributeEntry workingDirectoryKey text rest)).result =
      .ok ⟨{ directory := text, command }, children⟩ := by
  have reserved : isReservedKey workingDirectoryKey = true := by decide
  cases text with
  | none => exact read
  | some text =>
      simp only [attributeEntry, loadEntries_reserved reserved, loadAttribute, if_true, attributeText,
        Loaded.ok_bind, Loaded.map_result_eq_ok]
      exact ⟨_, read, rfl⟩

/-- A written attribute that is derived is passed over. -/
theorem loadEntries_derived {key : String}
    (derived : key = qualifiedNameKey ∨ key = effectiveWorkingDirectoryKey) (text : Option String) :
    (loadEntries location (attributeEntry key text rest)).result = (loadEntries location rest).result := by
  have reserved : isReservedKey key = true := by
    rcases derived with rfl | rfl <;> decide
  have others : key ≠ workingDirectoryKey ∧ key ≠ commandKey := by
    rcases derived with rfl | rfl <;> decide
  cases text with
  | none => rfl
  | some text =>
      simp only [attributeEntry, loadEntries_reserved reserved, loadAttribute, others, derived, if_false,
        if_true, Loaded.report_result]

/-- Attributes are read back, but for the derived ones. -/
theorem loadEntries_attributes (attributes : Attributes)
    (read : (loadEntries location rest).result = .ok ⟨{}, children⟩) :
    (loadEntries location (attributes.toEntries rest)).result =
      .ok ⟨attributes.withoutDerived, children⟩ := by
  rw [Attributes.toEntries, loadEntries_derived (.inl rfl)]
  apply loadEntries_directory
  rw [loadEntries_derived (.inr rfl)]
  exact loadEntries_command attributes.command read

end Attributes

mutual

theorem loadNode_toValue (location : List String) :
    ∀ {node : Node}, node.KeepsText →
      (node.Everywhere fun key node => isReservedKey key = false ∧ node.KeepsText) →
      (loadNode location node.toValue).result = .ok node.withoutDerived
  | .group attributes _, _, readable => by
      have read := loadEntries_attributes attributes (loadEntries_toEntries location readable)
      simp only [Node.toValue, loadNode, Loaded.map_result_eq_ok]
      exact ⟨_, read, rfl⟩
  | .command text, keeps, _ => by
      simp only [Node.KeepsText] at keeps
      simp [Node.toValue, loadNode, Node.ofText, keeps, Node.withoutDerived]
  | .placeholder, _, _ => rfl
  | .reference ids, keeps, _ => by
      simp only [Node.KeepsText] at keeps
      simp [Node.toValue, loadNode, Node.ofText, keeps, Node.withoutDerived]

/-- Children are read back, but for the derived attributes in them. -/
theorem loadEntries_toEntries (location : List String) :
    ∀ {children : Children}, children.Readable →
      (loadEntries location children.toEntries).result = .ok ⟨{}, children.withoutDerived⟩
  | .nil, _ => rfl
  | .cons key node rest, ⟨⟨unreserved, keeps⟩, below, after⟩ => by
      simp only [Children.toEntries, loadEntries, Loaded.bind_result_eq_ok, stringKey_result_eq_ok]
      refine ⟨key, rfl, ?_⟩
      simp only [unreserved, Bool.false_eq_true, if_false, Loaded.bind_result_eq_ok, Loaded.map_result_eq_ok]
      exact ⟨_, loadNode_toValue (location ++ [key]) keeps below, _, loadEntries_toEntries location after, rfl⟩

end

theorem loadOptionEntries_toEntries (options : Options) :
    (loadOptionEntries options.toEntries).result = .ok options := by
  induction options with
  | nil => rfl
  | cons entry rest ih =>
      obtain ⟨key, value⟩ := entry
      simp only [Options.toEntries, loadOptionEntries, Loaded.bind_result_eq_ok, stringKey_result_eq_ok,
        Loaded.map_result_eq_ok]
      exact ⟨key, rfl, rest, ih, rfl⟩

/-- The document without any derived attributes. -/
def Document.withoutDerived (document : Document) : Document :=
  { document with units := document.units.withoutDerived }

/-- A document is read back, but for the derived attributes in it. -/
theorem Document.ofValue_toValue {document : Document} (readable : document.units.children.Readable) :
    (Document.ofValue document.toValue).result = .ok document.withoutDerived := by
  have units : (loadUnits document.units.toValue).result = .ok document.units.withoutDerived :=
    loadEntries_attributes document.units.attributes (loadEntries_toEntries [] readable)
  have options : (loadOptions (.mapping document.options.toEntries)).result = .ok document.options :=
    loadOptionEntries_toEntries document.options
  have parts : (loadTopLevel {} (.cons (.string "options") (.mapping document.options.toEntries)
      (.cons (.string "units") document.units.toValue .nil))).result =
        .ok ⟨some document.options, some document.units.withoutDerived⟩ := by
    have others : "options" ≠ "units" := by decide
    simp only [loadTopLevel, stringKey, Loaded.ok_bind, others, if_false, if_true, Loaded.bind_result_eq_ok]
    exact ⟨_, options, _, units, rfl⟩
  simp only [Document.toValue, Document.ofValue, Loaded.bind_result_eq_ok]
  refine ⟨_, parts, ?_⟩
  simp only [Parts.toDocument]
  split <;> rfl

end ShellUnits
