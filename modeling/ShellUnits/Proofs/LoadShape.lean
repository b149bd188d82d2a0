import ShellUnits.Document.WellKeyed
import ShellUnits.Proofs.Loading
import ShellUnits.Proofs.ReferenceSyntax

/-!
The documents that can be loaded.

Loading is neither one-to-one nor onto. What it gives has a shape of its own: nothing derived, no reserved
keys, no command that would be read as a reference and no reference that no text stands for. Every document of
that shape is given back by what is written for it, so the shape describes exactly what loading gives.

Main statement: `Document.loaded_iff_loadShaped`.
-/

namespace ShellUnits

/-!
### The shape
-/

mutual

/-- The unit is one that loading can give. -/
def Node.LoadShaped : Node → Prop
  | .group attributes children =>
    attributes.qualifiedName = none ∧ attributes.workingDirectory = none ∧ children.LoadShaped
  | .command text => parseReference? text = none
  | .placeholder => True
  | .reference ids => AreIds ids

/-- The children are some that loading can give. -/
def Children.LoadShaped : Children → Prop
  | .nil => True
  | .cons key node rest => '@' ∉ key.toList ∧ node.LoadShaped ∧ rest.LoadShaped

end

/-- The document is one that loading can give. -/
def Document.LoadShaped (document : Document) : Prop :=
  document.units.toNode.LoadShaped

theorem isReservedKey_eq_false_iff {key : String} : isReservedKey key = false ↔ '@' ∉ key.toList := by
  simp [isReservedKey]

/-!
### Commands that were numbers or truth values
-/

/-- A text without a dollar sign is no reference. -/
theorem parseReference?_eq_none_of_not_mem {text : String} (noDollar : '$' ∉ text.toList) :
    parseReference? text = none := by
  rw [Option.eq_none_iff_forall_ne_some]
  intro ids reads
  obtain ⟨-, rfl⟩ := parseReference?_eq_some_iff.mp reads
  simp [toList_formatReference] at noDollar

theorem dollar_not_mem_toDigits (n : Nat) : '$' ∉ Nat.toDigits 10 n := by
  intro mem
  have digit := Nat.isDigit_of_mem_toDigits (by decide) (by decide) mem
  revert digit
  decide

theorem dollar_not_mem_toString_int (n : Int) : '$' ∉ (toString n).toList := by
  cases n with
  | ofNat n =>
      show '$' ∉ (String.ofList (Nat.toDigits 10 n)).toList
      simp [dollar_not_mem_toDigits]
  | negSucc n =>
      show '$' ∉ ("-" ++ String.ofList (Nat.toDigits 10 (n + 1))).toList
      simp [dollar_not_mem_toDigits]

/-- Laying digits out adds zeros, a point and an exponent. -/
theorem FloatStyle.dollar_not_mem_layout {digits : List Char} (noDollar : '$' ∉ digits) (point : Int) :
    '$' ∉ (FloatStyle.bare.layout digits point).toList := by
  unfold FloatStyle.layout
  dsimp only
  split
  · simp [noDollar]
  · split
    · have first : '$' ∉ digits.take point.toNat := fun mem => noDollar (List.mem_of_mem_take mem)
      have second : '$' ∉ digits.drop point.toNat := fun mem => noDollar (List.mem_of_mem_drop mem)
      simp [first, second]
    · split
      · simp [noDollar]
      · have exponent := dollar_not_mem_toString_int (point - 1)
        simp only [String.toList_append, List.mem_append, not_or]
        refine ⟨⟨⟨?_, by decide⟩, by simp [FloatStyle.bare]⟩, exponent⟩
        split
        · simpa using noDollar
        · simpa using noDollar

theorem FloatStyle.dollar_not_mem_format (x : Binary64) : '$' ∉ (FloatStyle.bare.format x).toList := by
  have text : '$' ∉ (if x.shortestDigits.1 = 0 then "0.0"
      else FloatStyle.bare.layout (Nat.toDigits 10 x.shortestDigits.1)
        ((Nat.toDigits 10 x.shortestDigits.1).length + x.shortestDigits.2)).toList := by
    split
    · decide
    · exact FloatStyle.dollar_not_mem_layout (dollar_not_mem_toDigits _) _
  unfold FloatStyle.format
  dsimp only
  split
  · simpa using text
  · exact text

/-- A number is written without a dollar sign, so its text is no reference. -/
theorem Number.parseReference?_text (number : Number) : parseReference? number.text = none := by
  apply parseReference?_eq_none_of_not_mem
  cases number with
  | integer value => exact dollar_not_mem_toString_int value
  | float value =>
      simp only [Number.text]
      split
      · decide
      · split
        · split <;> decide
        · exact FloatStyle.dollar_not_mem_format value

/-!
### What is loaded has the shape
-/

/-- The ids of a text that is a reference are ids, and a text that is none is a command. -/
theorem Node.loadShaped_ofText (text : String) : (Node.ofText text).LoadShaped := by
  unfold Node.ofText
  cases reads : parseReference? text with
  | some ids => exact (parseReference?_eq_some_iff.mp reads).1
  | none => exact reads

/-- A group without derived attributes has no name and no effective directory. -/
theorem Group.unnamed_of_withoutDerived {group : Group} (plain : group.withoutDerived = group) :
    group.attributes.qualifiedName = none ∧ group.attributes.workingDirectory = none := by
  rw [← plain]
  exact ⟨rfl, rfl⟩

mutual

theorem Node.loadShaped_of_loadNode {location : List String} {node : Node} :
    ∀ {value : Value}, (loadNode location value).result = .ok node → node.LoadShaped
  | .null, loads => by
      obtain rfl := Except.ok.inj loads
      trivial
  | .string text, loads => by
      obtain rfl := Except.ok.inj loads
      exact Node.loadShaped_ofText text
  | .number number, loads => by
      obtain rfl := Except.ok.inj loads
      exact number.parseReference?_text
  | .bool value, loads => by
      obtain rfl := Except.ok.inj loads
      apply parseReference?_eq_none_of_not_mem
      cases value <;> decide
  | .mapping entries, loads => by
      simp only [loadNode, Loaded.map_result_eq_ok] at loads
      obtain ⟨group, read, rfl⟩ := loads
      obtain ⟨unnamed, noDirectory⟩ := Group.unnamed_of_withoutDerived (loadEntries_spec read).1
      exact ⟨unnamed, noDirectory, Children.loadShaped_of_loadEntries read⟩
  | .sequence _, loads => by simp [loadNode] at loads
  | .tagged _ _, loads => by simp [loadNode] at loads

/-- Entry by entry, an attribute adds nothing to the children and any other entry adds a child of the shape. -/
theorem Children.loadShaped_of_loadEntries {location : List String} {group : Group} :
    ∀ {entries : Entries}, (loadEntries location entries).result = .ok group → group.children.LoadShaped
  | .nil, loads => by
      obtain rfl := Except.ok.inj loads
      trivial
  | .cons _ value rest, loads => by
      obtain ⟨key, others, -, read, passed | child⟩ := loadEntries_cons loads
      · rw [passed.2.1]
        exact Children.loadShaped_of_loadEntries read
      · obtain ⟨unreserved, node, readNode, rfl⟩ := child
        exact ⟨isReservedKey_eq_false_iff.mp unreserved, Node.loadShaped_of_loadNode readNode,
          Children.loadShaped_of_loadEntries read⟩

end

theorem Group.loadShaped_of_loadUnits {units : Group} {value : Value}
    (loads : (loadUnits value).result = .ok units) : units.toNode.LoadShaped := by
  obtain ⟨unnamed, noDirectory⟩ := Group.unnamed_of_withoutDerived (loadUnits_spec loads).1
  refine ⟨unnamed, noDirectory, ?_⟩
  unfold loadUnits at loads
  split at loads
  · obtain rfl := Except.ok.inj loads
    trivial
  · exact Children.loadShaped_of_loadEntries loads
  · simp at loads

theorem Document.loadShaped_of_ofValue {document : Document} {value : Value}
    (loads : (Document.ofValue value).result = .ok document) : document.LoadShaped := by
  obtain ⟨-, -, ⟨units, -, read⟩, -⟩ := Document.ofValue_readFrom loads
  exact Group.loadShaped_of_loadUnits read

/-!
### What has the shape is read back
-/

/-- The text of a unit of the shape is read as that unit. -/
theorem Node.LoadShaped.keepsText {node : Node} (shaped : node.LoadShaped) : node.KeepsText := by
  cases node with
  | group attributes children => trivial
  | command text => exact shaped
  | placeholder => trivial
  | reference ids => exact parseReference?_eq_some_iff.mpr ⟨shaped, rfl⟩

theorem Attributes.withoutDerived_of_none {attributes : Attributes} (unnamed : attributes.qualifiedName = none)
    (noDirectory : attributes.workingDirectory = none) : attributes.withoutDerived = attributes := by
  cases attributes
  cases unnamed
  cases noDirectory
  rfl

mutual

theorem Node.LoadShaped.readable :
    ∀ {node : Node}, node.LoadShaped →
      node.withoutDerived = node ∧
        node.Everywhere fun key below => isReservedKey key = false ∧ below.KeepsText
  | .group attributes children, ⟨unnamed, noDirectory, below⟩ => by
      obtain ⟨plain, readable⟩ := below.readable
      have own := Attributes.withoutDerived_of_none unnamed noDirectory
      exact ⟨by rw [Node.withoutDerived, own, plain], readable⟩
  | .command _, _ => ⟨rfl, trivial⟩
  | .placeholder, _ => ⟨rfl, trivial⟩
  | .reference _, _ => ⟨rfl, trivial⟩

/-- Nothing in children of the shape is lost or taken for something else when they are written and read. -/
theorem Children.LoadShaped.readable :
    ∀ {children : Children}, children.LoadShaped → children.withoutDerived = children ∧ children.Readable
  | .nil, _ => ⟨rfl, trivial⟩
  | .cons key node rest, ⟨unreserved, here, after⟩ => by
      obtain ⟨nodePlain, nodeReadable⟩ := here.readable
      obtain ⟨restPlain, restReadable⟩ := after.readable
      refine ⟨by rw [Children.withoutDerived, nodePlain, restPlain], ?_, nodeReadable, restReadable⟩
      exact ⟨isReservedKey_eq_false_iff.mpr unreserved, here.keepsText⟩

end

/-- A document of the shape is read back as it is. -/
theorem Document.LoadShaped.ofValue_toValue {document : Document} (shaped : document.LoadShaped) :
    (Document.ofValue document.toValue).result = .ok document := by
  obtain ⟨unnamed, noDirectory, below⟩ := shaped
  obtain ⟨plain, readable⟩ := below.readable
  have own := Attributes.withoutDerived_of_none unnamed noDirectory
  rw [Document.ofValue_toValue readable, Document.withoutDerived, Group.withoutDerived, own, plain]

/-!
### Keys that stand once

A value that stands for mappings has each key once, and so must a document. Loading keeps keys apart, and what
is written for a document of the shape has no attribute under the key of a child.
-/

theorem Entries.keys_cons (key value : Value) (rest : Entries) :
    (Entries.cons key value rest).keys = key :: rest.keys := rfl

mutual

theorem Node.wellKeyed_of_loadNode {location : List String} {node : Node} :
    ∀ {value : Value}, value.WellKeyed → (loadNode location value).result = .ok node → node.WellKeyed
  | .null, _, loads => by
      obtain rfl := Except.ok.inj loads
      trivial
  | .string text, _, loads => by
      obtain rfl := Except.ok.inj loads
      unfold Node.ofText
      split <;> trivial
  | .number _, _, loads => by
      obtain rfl := Except.ok.inj loads
      trivial
  | .bool _, _, loads => by
      obtain rfl := Except.ok.inj loads
      trivial
  | .mapping entries, ⟨distinct, wellKeyed⟩, loads => by
      simp only [loadNode, Loaded.map_result_eq_ok] at loads
      obtain ⟨group, read, rfl⟩ := loads
      exact (Children.wellKeyed_of_loadEntries distinct wellKeyed read).1
  | .sequence _, _, loads => by simp [loadNode] at loads
  | .tagged _ _, _, loads => by simp [loadNode] at loads

/-- The keys of the children are among those of the entries, in which no key stands twice. -/
theorem Children.wellKeyed_of_loadEntries {location : List String} {group : Group} :
    ∀ {entries : Entries}, entries.keys.Nodup → entries.WellKeyed →
      (loadEntries location entries).result = .ok group →
        group.children.WellKeyed ∧ ∀ key ∈ group.children.keys, Value.string key ∈ entries.keys
  | .nil, _, _, loads => by
      obtain rfl := Except.ok.inj loads
      exact ⟨trivial, by simp [Children.keys]⟩
  | .cons _ value rest, distinct, ⟨_, wellKeyed, others⟩, loads => by
      rw [Entries.keys_cons, List.nodup_cons] at distinct
      obtain ⟨key, group', rfl, read, passed | child⟩ := loadEntries_cons loads
      · obtain ⟨after, among⟩ := Children.wellKeyed_of_loadEntries distinct.2 others read
        rw [passed.2.1, Entries.keys_cons]
        exact ⟨after, fun other mem => List.mem_cons_of_mem _ (among other mem)⟩
      · obtain ⟨-, node, readNode, rfl⟩ := child
        obtain ⟨after, among⟩ := Children.wellKeyed_of_loadEntries distinct.2 others read
        simp only [Entries.keys_cons, List.mem_cons]
        refine ⟨⟨?_, Node.wellKeyed_of_loadNode wellKeyed readNode, after⟩, ?_⟩
        · intro twice
          exact distinct.1 (among key twice)
        · intro other mem
          rcases List.mem_cons.mp mem with rfl | later
          · exact .inl rfl
          · exact .inr (among other later)

end

theorem Entries.keys_attributeEntry (key : String) (text : Option String) (rest : Entries) :
    ∃ given : List String, given.Sublist [key] ∧
      (attributeEntry key text rest).keys = given.map Value.string ++ rest.keys := by
  cases text with
  | none => exact ⟨[], List.nil_sublist _, rfl⟩
  | some text => exact ⟨[key], List.Sublist.refl _, rfl⟩

theorem Entries.wellKeyed_attributeEntry {key : String} {text : Option String} {rest : Entries}
    (wellKeyed : rest.WellKeyed) : (attributeEntry key text rest).WellKeyed := by
  cases text with
  | none => exact wellKeyed
  | some text => exact ⟨trivial, trivial, wellKeyed⟩

/-- The reserved keys that a group is written with. -/
def attributeKeys : List String :=
  [qualifiedNameKey, workingDirectoryKey, effectiveWorkingDirectoryKey, commandKey]

/-- Attributes come before the children, in a fixed order. -/
theorem Attributes.keys_toEntries (attributes : Attributes) (children : Entries) :
    ∃ given : List String, given.Sublist attributeKeys ∧
      (attributes.toEntries children).keys = given.map Value.string ++ children.keys := by
  obtain ⟨name, nameOnly, nameKeys⟩ := Entries.keys_attributeEntry qualifiedNameKey attributes.qualifiedName <|
    attributeEntry workingDirectoryKey attributes.directory <|
      attributeEntry effectiveWorkingDirectoryKey attributes.workingDirectory <|
        attributeEntry commandKey attributes.command children
  obtain ⟨override, overrideOnly, overrideKeys⟩ :=
    Entries.keys_attributeEntry workingDirectoryKey attributes.directory <|
      attributeEntry effectiveWorkingDirectoryKey attributes.workingDirectory <|
        attributeEntry commandKey attributes.command children
  obtain ⟨directory, directoryOnly, directoryKeys⟩ :=
    Entries.keys_attributeEntry effectiveWorkingDirectoryKey attributes.workingDirectory <|
      attributeEntry commandKey attributes.command children
  obtain ⟨command, commandOnly, commandKeys⟩ :=
    Entries.keys_attributeEntry commandKey attributes.command children
  refine ⟨name ++ (override ++ (directory ++ command)), ?_, ?_⟩
  · exact nameOnly.append (overrideOnly.append (directoryOnly.append commandOnly))
  · simp only [Attributes.toEntries, nameKeys, overrideKeys, directoryKeys, commandKeys, List.map_append,
      List.append_assoc]

/-- A group is written with each key once if its children are, and none of them under a reserved key. -/
theorem Attributes.wellKeyed_toEntries (attributes : Attributes) {keys : List String} {children : Entries}
    (written : children.keys = keys.map Value.string) (distinct : keys.Nodup)
    (unreserved : ∀ key ∈ keys, '@' ∉ key.toList) (wellKeyed : children.WellKeyed) :
    (attributes.toEntries children).keys.Nodup ∧ (attributes.toEntries children).WellKeyed := by
  have reserved : ∀ key ∈ attributeKeys, '@' ∈ key.toList := by decide
  constructor
  · obtain ⟨given, sublist, all⟩ := attributes.keys_toEntries children
    rw [all, written, ← List.map_append]
    refine List.Nodup.map (fun _ _ same => Value.string.inj same) (List.Nodup.append ?_ distinct ?_)
    · exact sublist.nodup (by decide)
    · intro key mem memChild
      exact unreserved key memChild (reserved key (sublist.subset mem))
  · exact Entries.wellKeyed_attributeEntry <| Entries.wellKeyed_attributeEntry <|
      Entries.wellKeyed_attributeEntry <| Entries.wellKeyed_attributeEntry wellKeyed

theorem Children.keys_toEntries (children : Children) :
    children.toEntries.keys = children.keys.map Value.string := by
  induction children with
  | nil => rfl
  | cons key node rest ih =>
      rw [Children.toEntries, Entries.keys_cons, ih]
      rfl

theorem Children.LoadShaped.unreserved :
    ∀ {children : Children}, children.LoadShaped → ∀ key ∈ children.keys, '@' ∉ key.toList
  | .nil, _ => by simp [Children.keys]
  | .cons _ _ _, ⟨here, _, after⟩ => List.forall_mem_cons.mpr ⟨here, after.unreserved⟩

mutual

theorem Node.LoadShaped.wellKeyed_toValue :
    ∀ {node : Node}, node.LoadShaped → node.WellKeyed → node.toValue.WellKeyed
  | .group attributes children, ⟨_, _, shaped⟩, wellKeyed =>
      attributes.wellKeyed_toEntries children.keys_toEntries wellKeyed.nodup shaped.unreserved
        (shaped.wellKeyed_toEntries wellKeyed)
  | .command _, _, _ => trivial
  | .placeholder, _, _ => trivial
  | .reference _, _, _ => trivial

theorem Children.LoadShaped.wellKeyed_toEntries :
    ∀ {children : Children}, children.LoadShaped → children.WellKeyed → children.toEntries.WellKeyed
  | .nil, _, _ => trivial
  | .cons _ _ _, ⟨_, here, after⟩, ⟨_, hereKeyed, afterKeyed⟩ =>
      ⟨trivial, here.wellKeyed_toValue hereKeyed, after.wellKeyed_toEntries afterKeyed⟩

end

theorem Options.wellKeyed_toEntries_iff {options : Options} :
    options.toEntries.WellKeyed ↔ ∀ entry ∈ options, entry.2.WellKeyed := by
  induction options with
  | nil => simp [Options.toEntries, Entries.WellKeyed]
  | cons entry rest ih =>
      obtain ⟨key, value⟩ := entry
      simp [Options.toEntries, Entries.WellKeyed, Value.WellKeyed, ih]

/-- A document with each key once is written as such a value. -/
theorem Document.LoadShaped.wellKeyed_toValue {document : Document} (shaped : document.LoadShaped)
    (wellKeyed : document.WellKeyed) : document.toValue.WellKeyed := by
  have units : document.units.toValue.WellKeyed := Node.LoadShaped.wellKeyed_toValue shaped wellKeyed.units
  have options : (Value.mapping document.options.toEntries).WellKeyed := by
    refine ⟨?_, Options.wellKeyed_toEntries_iff.mpr wellKeyed.options⟩
    rw [Options.keys_toEntries]
    exact List.Nodup.map (fun _ _ same => Value.string.inj same) wellKeyed.distinct
  have keys : document.toValue.WellKeyed ↔ (Value.mapping document.options.toEntries).WellKeyed ∧
      document.units.toValue.WellKeyed := by
    simp [Document.toValue, Value.WellKeyed, Entries.WellKeyed, Entries.keys, Entries.toList]
  exact keys.mpr ⟨options, units⟩

/-- From a value with each key once a document with each key once is loaded. -/
theorem Document.wellKeyed_of_ofValue {document : Document} {value : Value} (wellKeyed : value.WellKeyed)
    (loads : (Document.ofValue value).result = .ok document) : document.WellKeyed := by
  obtain ⟨-, -, distinct⟩ := Document.ofValue_spec wellKeyed loads
  obtain ⟨entries, rfl, ⟨units, mem, readUnits⟩, options⟩ := Document.ofValue_readFrom loads
  refine ⟨distinct, ?_, ?_⟩
  · rcases options with none | ⟨value, mem, readOptions⟩
    · simp [none]
    · have given := wellKeyed.2.of_mem_values mem
      unfold loadOptions at readOptions
      split at readOptions
      · simp [← Except.ok.inj readOptions]
      · rw [← Options.wellKeyed_toEntries_iff, loadOptionEntries_spec readOptions]
        exact given.2
      · simp at readOptions
  · have given := wellKeyed.2.of_mem_values mem
    unfold loadUnits at readUnits
    split at readUnits
    · rw [← Except.ok.inj readUnits]
      trivial
    · exact (Children.wellKeyed_of_loadEntries given.1 given.2 readUnits).1
    · simp at readUnits

/-!
### The image of loading
-/

/-- Loading gives documents of the shape only. Every document of the shape is given back, with its options and
children in their order, when it is written as a value and loaded. So among the values and documents that have
each key once, loading gives exactly the documents of the shape. -/
theorem Document.loaded_iff_loadShaped (document : Document) :
    (∀ value, (Document.ofValue value).result = .ok document → document.LoadShaped) ∧
      (document.LoadShaped → (Document.ofValue document.toValue).result = .ok document) ∧
      ((∃ value, value.WellKeyed ∧ (Document.ofValue value).result = .ok document) ↔
        document.LoadShaped ∧ document.WellKeyed) := by
  refine ⟨fun _ => Document.loadShaped_of_ofValue, Document.LoadShaped.ofValue_toValue, ?_⟩
  constructor
  · rintro ⟨value, wellKeyed, loads⟩
    exact ⟨Document.loadShaped_of_ofValue loads, Document.wellKeyed_of_ofValue wellKeyed loads⟩
  · rintro ⟨shaped, wellKeyed⟩
    exact ⟨document.toValue, shaped.wellKeyed_toValue wellKeyed, shaped.ofValue_toValue⟩

end ShellUnits
