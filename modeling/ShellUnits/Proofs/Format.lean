import ShellUnits.Proofs.Loading

/-!
Which values are documents, and what is wrong with the others.

The form of a document is given by the mappings that are reached from its units: a path of keys without the
reserved marker leads to each of them. The loader reads entries in order and goes below an entry before it
reads the next one. So it fails exactly where the list of all entries, each with the entries below it behind
it, has its first offence, and at the location of that one. Entries under reserved keys have none below them.

Main definitions: `Entries.Reaches`, `Entries.IsDocument`, `Entries.placed`, `Entries.documentOffences`,
`Children.StandFor`.
Main statements: `Entries.mem_placed_iff`, `Entries.isDocument_iff`, `loadEntries_failure?`,
`Children.StandFor.keys`, `Document.ofValue_failure?`, `Document.ofValue_outcome`.
-/

namespace ShellUnits

/-!
### The form of a document
-/

/-- The key of a unit: a string without the reserved marker. -/
def Value.unitKey? : Value → Option String
  | .string key => if isReservedKey key then none else some key
  | _ => none

/-- Through mappings under keys without the reserved marker, the path leads from one mapping to another. -/
inductive Entries.Reaches : Entries → List String → Entries → Prop where
  | here (entries : Entries) : Reaches entries [] entries
  | enter {entries inner reached : Entries} {key : String} {path : List String}
      (mem : (.string key, .mapping inner) ∈ entries.toList) (unreserved : isReservedKey key = false)
      (further : Reaches inner path reached) : Reaches entries (key :: path) reached

/-- All keys are strings. -/
def Entries.HasStringKeys (entries : Entries) : Prop :=
  ∀ key ∈ entries.keys, ∃ text, key = .string text

/-- What the entries of a group must be. Those under other reserved keys may have any value. -/
structure Entries.FitsGroup (entries : Entries) : Prop where
  keys : entries.HasStringKeys
  attributes : ∀ key value, (.string key, value) ∈ entries.toList →
    key ∈ keptAttributeKeys → ∃ text, value = .string text
  units : ∀ key value, (.string key, value) ∈ entries.toList → isReservedKey key = false →
    (∀ items, value ≠ .sequence items) ∧ ∀ tag inner, value ≠ .tagged tag inner

/-- What the top level of a document must be. Keys other than these two may have any value. -/
structure Entries.IsDocument (entries : Entries) : Prop where
  keys : entries.HasStringKeys
  present : .string "units" ∈ entries.keys
  units : ∀ value, (.string "units", value) ∈ entries.toList →
    value = .null ∨ ∃ units, value = .mapping units ∧
      ∀ path reached, units.Reaches path reached → reached.FitsGroup
  options : ∀ value, (.string "options", value) ∈ entries.toList →
    value = .null ∨ ∃ options, value = .mapping options ∧ options.HasStringKeys

/-!
### Offences
-/

/-- Something that no document may have, with the location that it is blamed on. -/
structure Offence where
  location : List String
  what : Malformation
deriving DecidableEq, Repr

/-- The error that names the offence. -/
def Offence.error (offence : Offence) : LoadError :=
  .malformed offence.location offence.what

/-- An entry of a mapping, with the location of the group that the mapping stands for. -/
structure PlacedEntry where
  location : List String
  key : Value
  value : Value
deriving DecidableEq, Repr

mutual

/-- The entries of all mappings that are reached from the value of a unit at this location. -/
def Value.placed (location : List String) : Value → List PlacedEntry
  | .mapping entries => entries.placed location
  | _ => []

/-- The entries of the group at this location in order, each with all entries below it right behind it. -/
def Entries.placed (location : List String) : Entries → List PlacedEntry
  | .nil => []
  | .cons key value rest =>
    ⟨location, key, value⟩ ::
      ((match key.unitKey? with
        | some key => value.placed (location ++ [key])
        | none => []) ++ rest.placed location)

end

/-- Why a value stands for no unit, whatever is below it. -/
def Value.misfit? : Value → Option Malformation
  | .sequence _ => some .sequence
  | .tagged tag _ => some (.tag tag)
  | _ => none

/-- What is wrong with an entry itself: a key or an attribute is blamed on the group, a value on the unit. -/
def PlacedEntry.offence? : PlacedEntry → Option Offence
  | ⟨location, .string key, value⟩ =>
    if key ∈ keptAttributeKeys then
      match value with
      | .string _ => none
      | _ => some ⟨location, .attributeNotString key⟩
    else if isReservedKey key then none
    else value.misfit?.map (Offence.mk (location ++ [key]))
  | ⟨location, key, _⟩ => some ⟨location, .keyNotString key⟩

/-- The offences of a group at this location and below it. -/
def Entries.offences (location : List String) (entries : Entries) : List Offence :=
  (entries.placed location).filterMap PlacedEntry.offence?

/-- The keys that are no strings, blamed on this location. -/
def Entries.keyOffences (location : List String) (entries : Entries) : List Offence :=
  entries.keys.filterMap fun
    | .string _ => none
    | key => some ⟨location, .keyNotString key⟩

/-- The offences of an entry at the top level and of what is below it. -/
def topLevelOffences : Value × Value → List Offence
  | (.string key, value) =>
    if key = "units" then
      match value with
      | .null => []
      | .mapping units => units.offences []
      | _ => [⟨[], .unitsNotMapping⟩]
    else if key = "options" then
      match value with
      | .null => []
      | .mapping options => options.keyOffences ["options"]
      | _ => [⟨[], .optionsNotMapping⟩]
    else []
  | (key, _) => [⟨[], .keyNotString key⟩]

/-- The offences of the entries of a document, in order. -/
def Entries.documentOffences (entries : Entries) : List Offence :=
  entries.toList.flatMap topLevelOffences

/-- Behind a unit that is fine, a bad value comes before the bad key that follows it in its group, and the
sequence under a reserved key is none of the offences. -/
example :
    (Entries.cons (.string "units")
      (.mapping <|
        .cons (.string "a") (.mapping (.cons (.string "@b") (.sequence .nil) .nil)) <|
          .cons (.string "c") (.mapping (.cons (.string "d") (.sequence .nil) (.cons .null .null .nil))) .nil)
      .nil).documentOffences = [⟨["c", "d"], .sequence⟩, ⟨["c"], .keyNotString .null⟩] := by decide

/-!
### Where the entries are
-/

theorem Entries.mem_keys_iff {entries : Entries} {key : Value} :
    key ∈ entries.keys ↔ ∃ value, (key, value) ∈ entries.toList := by
  simp [keys]

theorem Value.unitKey?_eq_some_iff {value : Value} {key : String} :
    value.unitKey? = some key ↔ value = .string key ∧ isReservedKey key = false := by
  cases value with
  | string text =>
      by_cases reserved : isReservedKey text
      · simp only [unitKey?, reserved, if_true, Value.string.injEq]
        constructor
        · simp
        · rintro ⟨rfl, unreserved⟩
          simp [reserved] at unreserved
      · simp only [unitKey?, reserved, Bool.false_eq_true, if_false, Option.some.injEq, Value.string.injEq]
        constructor
        · rintro rfl
          exact ⟨rfl, by simpa using reserved⟩
        · exact And.left
  | _ => simp [unitKey?]

/-- A longer row of entries leads to what the shorter one leads to; only the empty path ends in a row itself. -/
theorem Entries.Reaches.cons {entries reached : Entries} {path : List String} {found : Value × Value}
    (key value : Value) (reaches : entries.Reaches path reached) (mem : found ∈ reached.toList) :
    ∃ other, (Entries.cons key value entries).Reaches path other ∧ found ∈ other.toList := by
  cases reaches with
  | here => exact ⟨_, .here _, List.mem_cons_of_mem _ mem⟩
  | enter there unreserved further =>
      exact ⟨reached, .enter (List.mem_cons_of_mem _ there) unreserved further, mem⟩

mutual

theorem Value.reaches_of_mem_placed {location : List String} {entry : PlacedEntry} :
    ∀ {value : Value}, entry ∈ value.placed location →
      ∃ entries path reached, value = .mapping entries ∧ entries.Reaches path reached ∧
        entry.location = location ++ path ∧ (entry.key, entry.value) ∈ reached.toList
  | .mapping entries, mem => by
      obtain ⟨path, reached, found⟩ := Entries.reaches_of_mem_placed mem
      exact ⟨entries, path, reached, rfl, found⟩

theorem Entries.reaches_of_mem_placed {location : List String} {entry : PlacedEntry} :
    ∀ {entries : Entries}, entry ∈ entries.placed location →
      ∃ path reached, entries.Reaches path reached ∧ entry.location = location ++ path ∧
        (entry.key, entry.value) ∈ reached.toList
  | .cons key value rest, mem => by
      simp only [Entries.placed, List.mem_cons, List.mem_append] at mem
      rcases mem with rfl | below | later
      · exact ⟨[], _, .here _, by simp, List.mem_cons_self⟩
      · cases unit : key.unitKey? with
        | none => simp [unit] at below
        | some name =>
            obtain ⟨rfl, unreserved⟩ := Value.unitKey?_eq_some_iff.mp unit
            simp only [unit] at below
            obtain ⟨inner, path, reached, rfl, reaches, located, found⟩ := Value.reaches_of_mem_placed below
            exact ⟨name :: path, reached, .enter List.mem_cons_self unreserved reaches, by simp [located], found⟩
      · obtain ⟨path, reached, reaches, located, found⟩ := Entries.reaches_of_mem_placed later
        obtain ⟨other, longer, found⟩ := reaches.cons key value found
        exact ⟨path, other, longer, located, found⟩

end

theorem Entries.mem_placed_of_mem {location : List String} {key value : Value} :
    ∀ {entries : Entries}, (key, value) ∈ entries.toList → ⟨location, key, value⟩ ∈ entries.placed location
  | .cons _ _ rest, mem => by
      simp only [toList, List.mem_cons, Prod.mk.injEq] at mem
      simp only [placed, List.mem_cons, List.mem_append]
      rcases mem with ⟨rfl, rfl⟩ | later
      · exact .inl rfl
      · exact .inr (.inr (mem_placed_of_mem later))

theorem Entries.mem_placed_of_below {location : List String} {name : String} {value : Value}
    {entry : PlacedEntry} (unreserved : isReservedKey name = false)
    (mem : entry ∈ value.placed (location ++ [name])) :
    ∀ {entries : Entries}, (.string name, value) ∈ entries.toList → entry ∈ entries.placed location
  | .cons _ _ rest, there => by
      simp only [toList, List.mem_cons, Prod.mk.injEq] at there
      simp only [placed, List.mem_cons, List.mem_append]
      rcases there with ⟨rfl, rfl⟩ | later
      · have unit := Value.unitKey?_eq_some_iff.mpr ⟨rfl, unreserved⟩
        exact .inr (.inl (by simpa only [unit] using mem))
      · exact .inr (.inr (mem_placed_of_below unreserved mem later))

/-- Exactly the entries of the mappings that are reached are listed, each with the path that leads to it. -/
theorem Entries.mem_placed_iff {entries : Entries} {location : List String} {entry : PlacedEntry} :
    entry ∈ entries.placed location ↔
      ∃ path reached, entries.Reaches path reached ∧ entry.location = location ++ path ∧
        (entry.key, entry.value) ∈ reached.toList := by
  constructor
  · exact Entries.reaches_of_mem_placed
  · rintro ⟨path, reached, reaches, located, found⟩
    -- on the way down the location grows at its end and the path shrinks at its front
    induction reaches generalizing location with
    | here entries =>
        obtain rfl : entry.location = location := by simpa using located
        exact Entries.mem_placed_of_mem found
    | enter there unreserved further ih =>
        apply Entries.mem_placed_of_below unreserved _ there
        exact ih (by simp [located]) found

/-- What is read off the entries one by one: off the first entry, then off those below it, then off those behind
it. -/
theorem Entries.filterMap_placed_cons {α : Type} (read? : PlacedEntry → Option α) (location : List String)
    (key value : Value) (rest : Entries) :
    ((Entries.cons key value rest).placed location).filterMap read? =
      (read? ⟨location, key, value⟩).toList ++
        ((match key.unitKey? with
          | some key => (value.placed (location ++ [key])).filterMap read?
          | none => []) ++ (rest.placed location).filterMap read?) := by
  simp only [placed, List.filterMap_cons, List.filterMap_append]
  cases read? ⟨location, key, value⟩ <;> cases key.unitKey? <;> rfl

/-!
### No offence, and the form of a document
-/

theorem PlacedEntry.offence?_eq_none_iff {location : List String} {key value : Value} :
    offence? ⟨location, key, value⟩ = none ↔
      ∃ text, key = .string text ∧
        (text ∈ keptAttributeKeys → ∃ own, value = .string own) ∧
        (isReservedKey text = false →
          (∀ items, value ≠ .sequence items) ∧ ∀ tag inner, value ≠ .tagged tag inner) := by
  cases key with
  | string text =>
      by_cases isAttribute : text ∈ keptAttributeKeys
      · have reserved := isReservedKey_of_mem_kept isAttribute
        cases value <;> simp [offence?, isAttribute, reserved]
      · by_cases reserved : isReservedKey text
        · simp [offence?, isAttribute, reserved]
        · cases value <;> simp [offence?, isAttribute, reserved, Value.misfit?]
  | _ => simp [offence?]

/-- A group and all below it are without offence exactly when all mappings that are reached fit. -/
theorem Entries.offences_eq_nil_iff {entries : Entries} {location : List String} :
    entries.offences location = [] ↔ ∀ path reached, entries.Reaches path reached → reached.FitsGroup := by
  simp only [offences, List.filterMap_eq_nil_iff]
  constructor
  · intro none path reached reaches
    have fits : ∀ key value, (key, value) ∈ reached.toList → _ := fun key value mem =>
      PlacedEntry.offence?_eq_none_iff.mp
        (none ⟨location ++ path, key, value⟩ (mem_placed_iff.mpr ⟨path, reached, reaches, rfl, mem⟩))
    refine ⟨?_, ?_, ?_⟩
    · intro key isKey
      obtain ⟨value, mem⟩ := mem_keys_iff.mp isKey
      obtain ⟨text, isText, -⟩ := fits key value mem
      exact ⟨text, isText⟩
    · intro key value mem
      obtain ⟨text, same, own, -⟩ := fits _ value mem
      cases same
      exact own
    · intro key value mem
      obtain ⟨text, same, -, unit⟩ := fits _ value mem
      cases same
      exact unit
  · rintro fits ⟨place, key, value⟩ mem
    obtain ⟨path, reached, reaches, -, found⟩ := mem_placed_iff.mp mem
    obtain ⟨keys, attributes, units⟩ := fits path reached reaches
    obtain ⟨text, rfl⟩ := keys key (mem_keys_iff.mpr ⟨value, found⟩)
    exact PlacedEntry.offence?_eq_none_iff.mpr ⟨text, rfl, attributes text value found, units text value found⟩

theorem Entries.keyOffences_eq_nil_iff {entries : Entries} {location : List String} :
    entries.keyOffences location = [] ↔ entries.HasStringKeys := by
  simp only [keyOffences, List.filterMap_eq_nil_iff, HasStringKeys]
  refine forall₂_congr fun key _ => ?_
  cases key <;> simp

theorem topLevelOffences_eq_nil_iff {key value : Value} :
    topLevelOffences (key, value) = [] ↔
      (∃ text, key = .string text) ∧
        (key = .string "units" → value = .null ∨ ∃ units, value = .mapping units ∧
          ∀ path reached, units.Reaches path reached → reached.FitsGroup) ∧
        (key = .string "options" →
          value = .null ∨ ∃ options, value = .mapping options ∧ options.HasStringKeys) := by
  cases key with
  | string text =>
      by_cases isUnits : text = "units"
      · cases value <;> simp [topLevelOffences, isUnits, Entries.offences_eq_nil_iff]
      · by_cases isOptions : text = "options"
        · cases value <;> simp [topLevelOffences, isOptions, Entries.keyOffences_eq_nil_iff]
        · simp [topLevelOffences, isUnits, isOptions]
  | _ => simp [topLevelOffences]

/-- Without offence and with units, the entries are those of a document, and the other way round. -/
theorem Entries.isDocument_iff {entries : Entries} :
    entries.IsDocument ↔ entries.documentOffences = [] ∧ .string "units" ∈ entries.keys := by
  simp only [documentOffences, List.flatMap_eq_nil_iff]
  constructor
  · rintro ⟨keys, present, units, options⟩
    refine ⟨?_, present⟩
    rintro ⟨key, value⟩ mem
    refine topLevelOffences_eq_nil_iff.mpr ⟨keys key (mem_keys_iff.mpr ⟨value, mem⟩), ?_, ?_⟩
    · rintro rfl
      exact units value mem
    · rintro rfl
      exact options value mem
  · rintro ⟨none, present⟩
    have fits : ∀ key value, (key, value) ∈ entries.toList → _ := fun key value mem =>
      topLevelOffences_eq_nil_iff.mp (none (key, value) mem)
    refine ⟨?_, present, ?_, ?_⟩
    · intro key isKey
      obtain ⟨value, mem⟩ := mem_keys_iff.mp isKey
      exact (fits key value mem).1
    · exact fun value mem => (fits _ value mem).2.1 rfl
    · exact fun value mem => (fits _ value mem).2.2 rfl

/-!
### The loader fails at the first offence
-/

namespace Loaded

variable {α β : Type}

/-- Why reading has failed, if it has. -/
def failure? (loaded : Loaded α) : Option LoadError :=
  match loaded.result with
  | .error failure => some failure
  | .ok _ => none

@[simp] theorem failure?_ok (value : α) : (Loaded.ok value).failure? = none := rfl

@[simp] theorem failure?_fail (failure : LoadError) : (Loaded.fail failure : Loaded α).failure? = some failure := rfl

@[simp] theorem failure?_report (event : Event) (next : Loaded α) : (next.report event).failure? = next.failure? := rfl

@[simp] theorem fail_bind (failure : LoadError) (next : α → Loaded β) :
    ((Loaded.fail failure).bind next) = Loaded.fail failure := rfl

@[simp] theorem failure?_map (f : α → β) (loaded : Loaded α) : (loaded.map f).failure? = loaded.failure? := by
  unfold failure? map
  cases loaded.result <;> rfl

/-- Where it does not depend on what has been read whether the rest fails, the first failure counts. -/
theorem failure?_bind {first : Loaded α} {next : α → Loaded β} {after : Option LoadError}
    (same : ∀ value, (next value).failure? = after) : (first.bind next).failure? = first.failure?.or after := by
  unfold failure? bind
  cases read : first.result with
  | error failure => rfl
  | ok value => exact same value

theorem failure?_eq_some_iff {loaded : Loaded α} {failure : LoadError} :
    loaded.failure? = some failure ↔ loaded.result = .error failure := by
  unfold failure?
  cases loaded.result <;> simp

theorem failure?_eq_none_iff {loaded : Loaded α} :
    loaded.failure? = none ↔ ∃ value, loaded.result = .ok value := by
  unfold failure?
  cases loaded.result <;> simp

end Loaded

/-- The error that names the first of the offences, if there is one. -/
def blame? (offences : List Offence) : Option LoadError :=
  offences.head?.map Offence.error

@[simp] theorem blame?_nil : blame? [] = none := rfl

@[simp] theorem blame?_cons (first : Offence) (later : List Offence) :
    blame? (first :: later) = some first.error := rfl

theorem blame?_append (first later : List Offence) :
    blame? (first ++ later) = (blame? first).or (blame? later) := by
  cases first <;> simp

/-- What is wrong with the entry, then what is wrong below it, then what is wrong behind it. -/
theorem Entries.offences_cons (location : List String) (key value : Value) (rest : Entries) :
    (Entries.cons key value rest).offences location =
      (PlacedEntry.offence? ⟨location, key, value⟩).toList ++
        ((match key.unitKey? with
          | some key => (value.placed (location ++ [key])).filterMap PlacedEntry.offence?
          | none => []) ++ rest.offences location) :=
  Entries.filterMap_placed_cons PlacedEntry.offence? location key value rest

/-- An attribute fails before anything else does, and only for its own value. -/
theorem loadAttribute_failure? {key : String} (reserved : isReservedKey key = true) (location : List String)
    (value : Value) (rest : Loaded Group) :
    (loadAttribute location key value rest).failure? =
      (blame? (PlacedEntry.offence? ⟨location, .string key, value⟩).toList).or rest.failure? := by
  have text : ∀ f : String → Group → Group,
      ((attributeText location key value).bind fun text => rest.map (f text)).failure? =
        (attributeText location key value).failure?.or rest.failure? := fun f =>
    Loaded.failure?_bind fun text => Loaded.failure?_map _ _
  have blamed : key ∈ keptAttributeKeys →
      (attributeText location key value).failure? =
        blame? (PlacedEntry.offence? ⟨location, .string key, value⟩).toList := by
    intro isAttribute
    cases value <;> simp [attributeText, PlacedEntry.offence?, isAttribute, Offence.error]
  unfold loadAttribute
  by_cases isDirectory : key = workingDirectoryKey
  · rw [if_pos isDirectory, text, blamed (by simp [keptAttributeKeys, isDirectory])]
  · by_cases isCommand : key = commandKey
    · rw [if_neg isDirectory, if_pos isCommand, text, blamed (by simp [keptAttributeKeys, isCommand])]
    · have fits : PlacedEntry.offence? ⟨location, .string key, value⟩ = none := by
        simp [PlacedEntry.offence?, keptAttributeKeys, isDirectory, isCommand, reserved]
      rw [if_neg isDirectory, if_neg isCommand]
      split <;> simp [fits]

mutual

theorem loadNode_failure? (location : List String) :
    ∀ value : Value, (loadNode location value).failure? =
      blame? ((value.misfit?.map (Offence.mk location)).toList ++
        (value.placed location).filterMap PlacedEntry.offence?)
  | .null => rfl
  | .bool _ => rfl
  | .number _ => rfl
  | .string _ => rfl
  | .sequence _ => rfl
  | .tagged _ _ => rfl
  | .mapping entries => by
      rw [loadNode, Loaded.failure?_map, loadEntries_failure? location entries]
      rfl

/-- Loading a group fails with its first offence. -/
theorem loadEntries_failure? (location : List String) :
    ∀ entries : Entries, (loadEntries location entries).failure? = blame? (entries.offences location)
  | .nil => rfl
  | .cons key value rest => by
      rw [Entries.offences_cons]
      cases key with
      | string key =>
          by_cases reserved : isReservedKey key
          · rw [loadEntries_reserved reserved, loadAttribute_failure? reserved, loadEntries_failure? location rest]
            simp [blame?_append, Value.unitKey?, reserved]
          · have unkept : key ∉ keptAttributeKeys := mt isReservedKey_of_mem_kept reserved
            simp only [loadEntries, stringKey, Loaded.ok_bind, reserved, Bool.false_eq_true, if_false]
            rw [Loaded.failure?_bind fun node => (Loaded.failure?_map _ _).trans (loadEntries_failure? location rest),
              loadNode_failure? (location ++ [key]) value]
            simp [blame?_append, Value.unitKey?, reserved, unkept, PlacedEntry.offence?, Option.or_assoc]
      | _ => rfl

end

theorem loadUnits_failure? (value : Value) :
    (loadUnits value).failure? = blame? (topLevelOffences (.string "units", value)) := by
  cases value with
  | mapping entries => exact loadEntries_failure? [] entries
  | _ => rfl

theorem loadOptionEntries_failure? :
    ∀ entries : Entries, (loadOptionEntries entries).failure? = blame? (entries.keyOffences ["options"])
  | .nil => rfl
  | .cons key value rest => by
      cases key with
      | string key => exact (Loaded.failure?_map _ _).trans (loadOptionEntries_failure? rest)
      | _ => rfl

theorem loadOptions_failure? (value : Value) :
    (loadOptions value).failure? = blame? (topLevelOffences (.string "options", value)) := by
  cases value with
  | mapping entries => exact loadOptionEntries_failure? entries
  | _ => rfl

/-- What has been found so far does not matter to what fails later. -/
theorem loadTopLevel_failure? :
    ∀ (parts : Parts) (entries : Entries),
      (loadTopLevel parts entries).failure? = blame? entries.documentOffences
  | _, .nil => rfl
  | parts, .cons key value rest => by
      have split : (Entries.cons key value rest).documentOffences =
          topLevelOffences (key, value) ++ rest.documentOffences := rfl
      rw [split, blame?_append]
      cases key with
      | string key =>
          simp only [loadTopLevel, stringKey, Loaded.ok_bind]
          by_cases isUnits : key = "units"
          · subst isUnits
            rw [if_pos rfl, Loaded.failure?_bind fun _ => loadTopLevel_failure? _ rest, loadUnits_failure?]
          · by_cases isOptions : key = "options"
            · subst isOptions
              rw [if_neg isUnits, if_pos rfl, Loaded.failure?_bind fun _ => loadTopLevel_failure? _ rest,
                loadOptions_failure?]
            · simp [topLevelOffences, isUnits, isOptions, loadTopLevel_failure? parts rest]
      | _ => rfl

/-!
### What is read from a document
-/

mutual

/-- The unit is what this value stands for. -/
inductive Node.StandsFor : Node → Value → Prop where
  | placeholder : Node.StandsFor .placeholder .null
  | text (text : String) : Node.StandsFor (.ofText text) (.string text)
  | number (number : Number) : Node.StandsFor (.command number.text) (.number number)
  | bool (value : Bool) : Node.StandsFor (.command (if value then "true" else "false")) (.bool value)
  | group {attributes : Attributes} {children : Children} {entries : Entries}
      (row : Children.StandFor children entries) : Node.StandsFor (.group attributes children) (.mapping entries)

/-- The children are what the entries without the reserved marker in their keys stand for, in order. -/
inductive Children.StandFor : Children → Entries → Prop where
  | nil : Children.StandFor .nil .nil
  | skip {children : Children} {key : String} {value : Value} {rest : Entries}
      (reserved : isReservedKey key = true) (others : Children.StandFor children rest) :
      Children.StandFor children (.cons (.string key) value rest)
  | child {node : Node} {children : Children} {key : String} {value : Value} {rest : Entries}
      (unreserved : isReservedKey key = false) (first : Node.StandsFor node value)
      (others : Children.StandFor children rest) :
      Children.StandFor (.cons key node children) (.cons (.string key) value rest)

end

/-- The children of the root are what the value of the units stands for; null stands for none. -/
def Group.StandsFor (group : Group) (units : Value) : Prop :=
  (units = .null ∧ group.children = .nil) ∨
    ∃ entries, units = .mapping entries ∧ group.children.StandFor entries

/-- The keys of the children are the keys without the reserved marker, in order. -/
theorem Children.StandFor.keys :
    ∀ {entries : Entries} {children : Children}, children.StandFor entries →
      children.keys = entries.keys.filterMap Value.unitKey?
  | .nil, _, stands => by
      cases stands
      rfl
  | .cons _ _ rest, _, stands => by
      cases stands with
      | skip reserved others =>
          rw [others.keys]
          simp [Entries.keys, Entries.toList, Value.unitKey?, reserved]
      | child unreserved _ others =>
          rw [Children.keys, others.keys]
          simp [Entries.keys, Entries.toList, Value.unitKey?, unreserved]

mutual

theorem Node.standsFor_of_loadNode {location : List String} {node : Node} :
    ∀ {value : Value}, (loadNode location value).result = .ok node → node.StandsFor value
  | .null, loads => by
      obtain rfl := Except.ok.inj loads
      exact .placeholder
  | .string text, loads => by
      obtain rfl := Except.ok.inj loads
      exact .text text
  | .number number, loads => by
      obtain rfl := Except.ok.inj loads
      exact .number number
  | .bool value, loads => by
      obtain rfl := Except.ok.inj loads
      exact .bool value
  | .mapping entries, loads => by
      simp only [loadNode, Loaded.map_result_eq_ok] at loads
      obtain ⟨group, read, rfl⟩ := loads
      exact .group (Children.standFor_of_loadEntries read)
  | .sequence _, loads => by simp [loadNode] at loads
  | .tagged _ _, loads => by simp [loadNode] at loads

/-- An attribute leaves the children as they are, any other entry adds one in front. -/
theorem Children.standFor_of_loadEntries {location : List String} {group : Group} :
    ∀ {entries : Entries}, (loadEntries location entries).result = .ok group → group.children.StandFor entries
  | .nil, loads => by
      obtain rfl := Except.ok.inj loads
      exact .nil
  | .cons _ value rest, loads => by
      obtain ⟨key, others, rfl, read, passed | child⟩ := loadEntries_cons loads
      · obtain ⟨reserved, same, -⟩ := passed
        rw [same]
        exact .skip reserved (Children.standFor_of_loadEntries read)
      · obtain ⟨unreserved, node, readNode, rfl⟩ := child
        exact .child unreserved (Node.standsFor_of_loadNode readNode) (Children.standFor_of_loadEntries read)

end

theorem Group.standsFor_of_loadUnits {units : Group} {value : Value}
    (loads : (loadUnits value).result = .ok units) : units.StandsFor value := by
  unfold loadUnits at loads
  split at loads
  · obtain rfl := Except.ok.inj loads
    exact .inl ⟨rfl, rfl⟩
  · exact .inr ⟨_, rfl, Children.standFor_of_loadEntries loads⟩
  · simp at loads

/-- The units that are found were read from the value of one of the entries, or there was none to read. -/
theorem loadTopLevel_units {found : Parts} :
    ∀ {entries : Entries} {parts : Parts}, (loadTopLevel parts entries).result = .ok found →
      (.string "units" ∉ entries.keys ∧ found.units = parts.units) ∨
        ∃ value units, (.string "units", value) ∈ entries.toList ∧
          (loadUnits value).result = .ok units ∧ found.units = some units
  | .nil, _, loads => by
      obtain rfl := Except.ok.inj loads
      exact .inl ⟨by simp [Entries.keys, Entries.toList], rfl⟩
  | .cons _ value _, _, loads => by
      rcases loadTopLevel_cons_reads loads with ⟨key, next, own, rfl, reads, further, -⟩
      rcases loadTopLevel_units further with ⟨absent, same⟩ | ⟨later, group, mem, found⟩
      · cases reads with
        | @units _ units reads => exact .inr ⟨value, units, List.mem_cons_self, reads, same⟩
        | options _ => exact .inl ⟨by simpa [Entries.keys, Entries.toList] using absent, same⟩
        | unknown _ notUnits _ =>
            exact .inl ⟨by simpa [Entries.keys, Entries.toList, Ne.symm notUnits] using absent, same⟩
      · exact .inr ⟨later, group, List.mem_cons_of_mem _ mem, found⟩

/-!
### The outcome of loading
-/

/-- The first offence is named; without offence, only the units can be missing. -/
theorem Document.ofValue_failure? (entries : Entries) :
    (Document.ofValue (.mapping entries)).failure? =
      (blame? entries.documentOffences).or
        (if .string "units" ∈ entries.keys then none else some .missingUnits) := by
  rw [← loadTopLevel_failure? {} entries]
  cases read : (loadTopLevel {} entries).result with
  | error failure =>
      have fails : (Document.ofValue (.mapping entries)).result = .error failure := by
        simp only [Document.ofValue, Loaded.bind, read]
      rw [Loaded.failure?_eq_some_iff.mpr fails, Loaded.failure?_eq_some_iff.mpr read, Option.some_or]
  | ok parts =>
      have goesOn : (Document.ofValue (.mapping entries)).result = parts.toDocument.result := by
        simp only [Document.ofValue, Loaded.bind, read]
      rw [Loaded.failure?_eq_none_iff.mpr ⟨parts, read⟩, Option.none_or]
      unfold Loaded.failure?
      rw [goesOn, Parts.toDocument_result]
      rcases loadTopLevel_units read with ⟨absent, none⟩ | ⟨value, units, mem, -, found⟩
      · simp [none, absent]
      · have present : .string "units" ∈ entries.keys := Entries.mem_keys_iff.mpr ⟨value, mem⟩
        simp [found, present]

/-- The children of each group of a document are the entries without the reserved marker in their keys. -/
theorem Document.standsFor_of_ofValue {document : Document} {value : Value}
    (loads : (Document.ofValue value).result = .ok document) :
    ∃ entries units, value = .mapping entries ∧ (.string "units", units) ∈ entries.toList ∧
      document.units.StandsFor units := by
  rcases Document.ofValue_reads loads with ⟨entries, parts, rfl, read, isUnits, -⟩
  rcases loadTopLevel_units read with ⟨-, none⟩ | ⟨value, units, mem, readUnits, found⟩
  · simp [none] at isUnits
  · obtain rfl := Option.some.inj (isUnits.symm.trans found)
    exact ⟨entries, value, rfl, mem, Group.standsFor_of_loadUnits readUnits⟩

/-- A value is accepted exactly when it has the form of a document, and then its units stand for the entries
without the reserved marker in their keys, in each group and in order. Otherwise the first offence is named
with its location, the root by a name of its own. That the units are missing is said only of a mapping without
offence and without units, and of what is no mapping. -/
theorem Document.ofValue_outcome (value : Value) :
    ((∃ document, (Document.ofValue value).result = .ok document) ↔
        ∃ entries, value = .mapping entries ∧ entries.IsDocument) ∧
      (∀ document, (Document.ofValue value).result = .ok document →
        ∃ entries units, value = .mapping entries ∧ (.string "units", units) ∈ entries.toList ∧
          document.units.StandsFor units) ∧
      (∀ entries first later, value = .mapping entries → entries.documentOffences = first :: later →
        (Document.ofValue value).result = .error (.malformed first.location first.what) ∧
          (LoadError.malformed first.location first.what).message =
            "Malformed unit at `" ++
              (if first.location = [] then "<root>" else ".".intercalate first.location) ++ "`: " ++
              first.what.reason) ∧
      ((Document.ofValue value).result = .error .missingUnits ↔
        ∀ entries, value = .mapping entries →
          entries.documentOffences = [] ∧ .string "units" ∉ entries.keys) := by
  refine ⟨?_, fun document => Document.standsFor_of_ofValue, ?_, ?_⟩
  · rw [← Loaded.failure?_eq_none_iff]
    cases value with
    | mapping entries =>
        simp only [Document.ofValue_failure?, Value.mapping.injEq, exists_eq_left', Entries.isDocument_iff]
        cases entries.documentOffences <;> simp
    | _ => simp [Document.ofValue]
  · rintro entries first later rfl offences
    refine ⟨Loaded.failure?_eq_some_iff.mp ?_, rfl⟩
    rw [Document.ofValue_failure?, offences]
    rfl
  · rw [← Loaded.failure?_eq_some_iff]
    cases value with
    | mapping entries =>
        simp only [Document.ofValue_failure?, Value.mapping.injEq, forall_eq']
        cases entries.documentOffences <;> simp [Offence.error]
    | _ => simp [Document.ofValue]

end ShellUnits
