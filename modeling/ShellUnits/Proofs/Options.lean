import ShellUnits.Options

/-!
Which separator the options give, and what normalizing makes of them.

The value under the main key counts if there is one, else the value under the alias. Normalizing refuses it
unless it is missing, null or one of the three separators, where tags on the value are looked through.
Options that have been normalized are read without failure and are not changed by normalizing again.

Main statements: `Options.normalize_of_refused`, `Options.exists_normalize_result`,
`Options.separator_normalize`, `Options.get?_normalize`, `Options.normalize_normalize`.
-/

namespace ShellUnits

/-!
### Values that name a separator
-/

/-- The value below all its tags. -/
def Value.untagged : Value → Value
  | .tagged _ value => value.untagged
  | value => value

/-- A value has a text exactly when a string is left below its tags. -/
theorem Value.asText?_eq_some_iff {text : String} :
    ∀ value : Value, value.asText? = some text ↔ value.untagged = .string text
  | .tagged _ value => by
      simpa [Value.asText?, Value.untagged] using Value.asText?_eq_some_iff value
  | .null => by simp [Value.asText?, Value.untagged]
  | .bool _ => by simp [Value.asText?, Value.untagged]
  | .number _ => by simp [Value.asText?, Value.untagged]
  | .string _ => by simp [Value.asText?, Value.untagged]
  | .sequence _ => by simp [Value.asText?, Value.untagged]
  | .mapping _ => by simp [Value.asText?, Value.untagged]

/-- The strings that name a separator. -/
def Separator.names : List Value := [.string ".", .string "-", .string ":"]

theorem Separator.ofText?_eq_none_iff {text : String} :
    Separator.ofText? text = none ↔ Value.string text ∉ Separator.names := by
  simp only [Separator.ofText?, Separator.all, List.find?_eq_none, Separator.names, List.mem_cons,
    Value.string.injEq, List.not_mem_nil, or_false, not_or, forall_eq_or_imp, forall_eq, Separator.text,
    beq_iff_eq]
  constructor
  · rintro ⟨notDot, notDash, notColon⟩
    exact ⟨Ne.symm notDot, Ne.symm notDash, Ne.symm notColon⟩
  · rintro ⟨notDot, notDash, notColon⟩
    exact ⟨Ne.symm notDot, Ne.symm notDash, Ne.symm notColon⟩

/-- A value names no separator exactly when none of the three strings is left below its tags. -/
theorem Separator.ofValue?_eq_none_iff {value : Value} :
    Separator.ofValue? value = none ↔ value.untagged ∉ Separator.names := by
  cases h : value.asText? with
  | none =>
      have noText : ∀ text, value.untagged ≠ .string text := by
        intro text isText
        rw [(Value.asText?_eq_some_iff value).mpr isText] at h
        simp at h
      simp [Separator.ofValue?, h, Separator.names, noText]
  | some text =>
      rw [(Value.asText?_eq_some_iff value).mp h]
      simpa [Separator.ofValue?, h] using Separator.ofText?_eq_none_iff

theorem Separator.ofText?_eq_some_iff {text : String} {separator : Separator} :
    Separator.ofText? text = some separator ↔ text = separator.text := by
  constructor
  · intro named
    rw [Separator.ofText?] at named
    have same := List.find?_some named
    exact (beq_iff_eq.mp same).symm
  · rintro rfl
    cases separator <;> rfl

/-- A value names the separator whose text is left below its tags. -/
theorem Separator.ofValue?_eq_some_iff {value : Value} {separator : Separator} :
    Separator.ofValue? value = some separator ↔ value.untagged = .string separator.text := by
  simp only [Separator.ofValue?, Option.bind_eq_some_iff, Value.asText?_eq_some_iff, Separator.ofText?_eq_some_iff]
  constructor
  · rintro ⟨text, isText, rfl⟩
    exact isText
  · intro isText
    exact ⟨separator.text, isText, rfl⟩

namespace Options

/-!
### The value that counts
-/

/-- The value that says which separator is meant: that of the main key, else that of the alias. -/
def givenSeparator (options : Options) : Option Value :=
  (Keyed.get? separatorKey options).or (Keyed.get? separatorAlias options)

/-- The options give this value for the separator, and it is not accepted. -/
def Refuses (options : Options) (value : Value) : Prop :=
  options.givenSeparator = some value ∧ value ≠ .null ∧ value.untagged ∉ Separator.names

instance (options : Options) (value : Value) : Decidable (options.Refuses value) :=
  inferInstanceAs (Decidable (_ ∧ _ ∧ _))

/-- Folding the alias puts the value that counts under the main key. -/
theorem get?_foldAlias (options : Options) :
    Keyed.get? separatorKey options.foldAlias.1 = options.givenSeparator := by
  have ne : separatorKey ≠ separatorAlias := by decide
  cases aliased : Keyed.get? separatorAlias options with
  | none => simp [foldAlias, givenSeparator, aliased]
  | some value =>
      cases main : Keyed.get? separatorKey options with
      | none => simp [foldAlias, givenSeparator, aliased, Keyed.contains, Keyed.get?_erase_of_ne ne, main]
      | some own => simp [foldAlias, givenSeparator, aliased, Keyed.contains, Keyed.get?_erase_of_ne ne, main]

/-- A value that is neither missing nor null must name a separator. -/
theorem chosenSeparator_some {value : Value} (notNull : value ≠ .null) :
    chosenSeparator (some value) =
      match Separator.ofValue? value with
      | some separator => .ok separator
      | none => .error (.invalidSeparator value) := by
  cases value with
  | null => exact absurd rfl notNull
  | _ => rfl

/-- What normalizing accepts under the key: null for the dot, and the names of separators. -/
theorem chosenSeparator_some_eq_ok_iff {value : Value} {separator : Separator} :
    chosenSeparator (some value) = .ok separator ↔
      (value = .null ∧ separator = .dot) ∨ Separator.ofValue? value = some separator := by
  by_cases isNull : value = .null
  · simp [isNull, chosenSeparator, Separator.ofValue?, Value.asText?, eq_comm]
  · rw [chosenSeparator_some isNull]
    cases Separator.ofValue? value <;> simp [isNull]

/-!
### How normalizing ends
-/

/-- A refused value is what normalizing fails with; the alias has been folded by then. -/
theorem normalize_of_refused {options : Options} {value : Value} (refused : options.Refuses value) :
    options.normalize = ⟨options.foldAlias.1, options.foldAlias.2, .error (.invalidSeparator value)⟩ := by
  obtain ⟨given, notNull, unnamed⟩ := refused
  have chosen : chosenSeparator (Keyed.get? separatorKey options.foldAlias.1) =
      .error (.invalidSeparator value) := by
    rw [get?_foldAlias, given, chosenSeparator_some notNull, Separator.ofValue?_eq_none_iff.mpr unnamed]
  simp only [normalize, chosen]

/-- Where no value is refused, some separator is meant. -/
theorem exists_chosenSeparator {options : Options} (accepted : ∀ value, ¬ options.Refuses value) :
    ∃ separator, chosenSeparator (Keyed.get? separatorKey options.foldAlias.1) = .ok separator := by
  rw [get?_foldAlias]
  cases given : options.givenSeparator with
  | none => exact ⟨.dot, rfl⟩
  | some value =>
      by_cases isNull : value = .null
      · exact ⟨.dot, by rw [isNull]; rfl⟩
      · rw [chosenSeparator_some isNull]
        cases named : Separator.ofValue? value with
        | some separator => exact ⟨separator, rfl⟩
        | none => exact absurd ⟨given, isNull, Separator.ofValue?_eq_none_iff.mp named⟩ (accepted value)

/-- Normalizing that has found a separator writes it under the main key. -/
theorem normalize_of_chosen {options : Options} {separator : Separator}
    (chosen : chosenSeparator (Keyed.get? separatorKey options.foldAlias.1) = .ok separator) :
    options.normalize.left = Keyed.insert separatorKey (.string separator.text) options.foldAlias.1 ∧
      options.normalize.result = .ok separator := by
  simp only [normalize, chosen, and_self]

/-- Normalizing fails on refused values only. -/
theorem exists_normalize_result {options : Options} (accepted : ∀ value, ¬ options.Refuses value) :
    ∃ separator, options.normalize.result = .ok separator := by
  obtain ⟨separator, chosen⟩ := exists_chosenSeparator accepted
  exact ⟨separator, (normalize_of_chosen chosen).2⟩

/-- The separator that normalizing answers is the one it has chosen. -/
theorem chosen_of_normalize {options : Options} {separator : Separator}
    (ok : options.normalize.result = .ok separator) :
    chosenSeparator (Keyed.get? separatorKey options.foldAlias.1) = .ok separator := by
  cases chosen : chosenSeparator (Keyed.get? separatorKey options.foldAlias.1) with
  | error failure => simp [normalize, chosen] at ok
  | ok other => rwa [(normalize_of_chosen chosen).2] at ok

theorem normalize_result_eq_ok_iff {options : Options} {separator : Separator} :
    options.normalize.result = .ok separator ↔ chosenSeparator options.givenSeparator = .ok separator := by
  rw [← get?_foldAlias]
  exact ⟨chosen_of_normalize, fun chosen => (normalize_of_chosen chosen).2⟩

/-- Options that have been normalized are read without failure, and as the separator that was chosen. -/
theorem separator_normalize {options : Options} {separator : Separator}
    (ok : options.normalize.result = .ok separator) :
    options.normalize.left.separator = .ok separator := by
  rw [(normalize_of_chosen (chosen_of_normalize ok)).1]
  cases separator <;> simp [Options.separator] <;> rfl

/-!
### What normalizing leaves
-/

/-- Folding the alias leaves keys distinct and no alias. -/
theorem foldAlias_distinct {options : Options} (distinct : Keyed.Distinct options) :
    Keyed.Distinct options.foldAlias.1 ∧ Keyed.get? separatorAlias options.foldAlias.1 = none := by
  have ne : separatorAlias ≠ separatorKey := by decide
  have erased := Keyed.get?_erase_self distinct separatorAlias
  cases aliased : Keyed.get? separatorAlias options with
  | none => simpa [foldAlias, aliased] using distinct
  | some value =>
      simp only [foldAlias, aliased]
      split
      · exact ⟨distinct.erase _, erased⟩
      · exact ⟨(distinct.erase _).insert _ _, by rw [Keyed.get?_insert_of_ne ne, erased]⟩

theorem get?_foldAlias_of_ne {key : String} (notMain : key ≠ separatorKey) (notAlias : key ≠ separatorAlias)
    (options : Options) : Keyed.get? key options.foldAlias.1 = Keyed.get? key options := by
  unfold foldAlias
  split
  · rfl
  · dsimp only
    split
    · exact Keyed.get?_erase_of_ne notAlias options
    · rw [Keyed.get?_insert_of_ne notMain, Keyed.get?_erase_of_ne notAlias]

/-- Normalized options hold the text of the separator, no alias, and all else as it was. -/
theorem get?_normalize {options : Options} (distinct : Keyed.Distinct options) {separator : Separator}
    (ok : options.normalize.result = .ok separator) (key : String) :
    Keyed.get? key options.normalize.left =
      if key = separatorKey then some (.string separator.text)
      else if key = separatorAlias then none
      else Keyed.get? key options := by
  rw [(normalize_of_chosen (chosen_of_normalize ok)).1]
  split
  · rename_i isMain
    rw [isMain, Keyed.get?_insert_self]
  · rename_i notMain
    rw [Keyed.get?_insert_of_ne notMain]
    split
    · rename_i isAlias
      rw [isAlias, (foldAlias_distinct distinct).2]
    · rename_i notAlias
      exact get?_foldAlias_of_ne notMain notAlias options

theorem normalize_distinct {options : Options} (distinct : Keyed.Distinct options) {separator : Separator}
    (ok : options.normalize.result = .ok separator) : Keyed.Distinct options.normalize.left := by
  rw [(normalize_of_chosen (chosen_of_normalize ok)).1]
  exact (foldAlias_distinct distinct).1.insert _ _

/-- A second normalizing answers the same separator and changes nothing. -/
theorem normalize_normalize {options : Options} (distinct : Keyed.Distinct options) {separator : Separator}
    (ok : options.normalize.result = .ok separator) :
    options.normalize.left.normalize.left = options.normalize.left ∧
      options.normalize.left.normalize.result = .ok separator := by
  have ne : separatorAlias ≠ separatorKey := by decide
  have main : Keyed.get? separatorKey options.normalize.left = some (.string separator.text) := by
    rw [get?_normalize distinct ok, if_pos rfl]
  have aliased : Keyed.get? separatorAlias options.normalize.left = none := by
    rw [get?_normalize distinct ok, if_neg ne, if_pos rfl]
  have folded : options.normalize.left.foldAlias.1 = options.normalize.left := by
    simp only [foldAlias, aliased]
  have chosen : chosenSeparator (Keyed.get? separatorKey options.normalize.left.foldAlias.1) =
      .ok separator := by
    rw [folded, main]
    cases separator <;> rfl
  obtain ⟨left, result⟩ := normalize_of_chosen chosen
  exact ⟨by rw [left, folded, Keyed.insert_of_get? main], result⟩

end Options

end ShellUnits
