import ShellUnits.Proofs.Failures

/-!
What normalizing leaves, after a failure as well.

The alias is taken out before the value is checked, so normalizing changes the options even when it refuses them:
the value that counts then stands under the main key. Either way one value is settled there and all other entries
stay as they are, in their order. Settled options are not changed by normalizing them again, and it answers the same
again.

Main statements: `Options.normalize_left_of_ok`, `Options.normalize_left_of_refused`, `Options.normalize_settles`.
-/

namespace ShellUnits

namespace Options

/-!
### One value for the separator
-/

/-- The options without the alias. -/
def withoutAlias (options : Options) : Options :=
  options.filter fun entry => entry.1 ≠ separatorAlias

/-- The options without the alias and with this value for the separator: at the place of the separator, or last if
there is none. -/
def settled (options : Options) (value : Value) : Options :=
  if separatorKey ∈ Keyed.keys options then
    options.withoutAlias.map fun entry => if entry.1 = separatorKey then (separatorKey, value) else entry
  else options.withoutAlias ++ [(separatorKey, value)]

/-- The entries that have nothing to do with the separator. -/
def others (options : Options) : Options :=
  options.filter fun entry => entry.1 ≠ separatorKey ∧ entry.1 ≠ separatorAlias

theorem mem_keys_withoutAlias_iff {options : Options} :
    separatorKey ∈ Keyed.keys options.withoutAlias ↔ separatorKey ∈ Keyed.keys options := by
  have ne : separatorKey ≠ separatorAlias := by decide
  simp only [Keyed.keys, withoutAlias, List.mem_map, List.mem_filter, decide_eq_true_eq]
  constructor
  · rintro ⟨entry, ⟨mem, -⟩, isMain⟩
    exact ⟨entry, mem, isMain⟩
  · rintro ⟨entry, mem, isMain⟩
    exact ⟨entry, ⟨mem, isMain ▸ ne⟩, isMain⟩

theorem withoutAlias_eq_erase {options : Options} (distinct : Keyed.Distinct options) :
    options.withoutAlias = Keyed.erase separatorAlias options :=
  (Keyed.erase_eq_filter distinct separatorAlias).symm

/-- Settling a value is inserting it where the alias has been taken out. -/
theorem settled_eq_insert {options : Options} (distinct : Keyed.Distinct options) (value : Value) :
    options.settled value = Keyed.insert separatorKey value options.withoutAlias := by
  have distinctToo : Keyed.Distinct options.withoutAlias := withoutAlias_eq_erase distinct ▸ distinct.erase _
  unfold settled
  split
  · rename_i present
    rw [Keyed.insert_eq_map distinctToo (mem_keys_withoutAlias_iff.mpr present)]
  · rename_i absent
    rw [Keyed.insert_of_not_mem value (mt mem_keys_withoutAlias_iff.mp absent)]

theorem others_settled {options : Options} (distinct : Keyed.Distinct options) (value : Value) :
    (options.settled value).others = options.others := by
  have dropped : decide (separatorKey ≠ separatorKey ∧ separatorKey ≠ separatorAlias) = false := by decide
  calc (options.settled value).others
    _ = options.withoutAlias.others := by
        rw [settled_eq_insert distinct]
        exact Keyed.filter_insert (fun key => key ≠ separatorKey ∧ key ≠ separatorAlias) dropped value _
    _ = options.others := by
        rw [others, withoutAlias, List.filter_filter, others]
        apply List.filter_congr
        simp

theorem get?_settled {options : Options} (distinct : Keyed.Distinct options) (value : Value) :
    Keyed.get? separatorKey (options.settled value) = some value := by
  rw [settled_eq_insert distinct, Keyed.get?_insert_self]

theorem get?_settled_alias {options : Options} (distinct : Keyed.Distinct options) (value : Value) :
    Keyed.get? separatorAlias (options.settled value) = none := by
  have ne : separatorAlias ≠ separatorKey := by decide
  rw [settled_eq_insert distinct, Keyed.get?_insert_of_ne ne, withoutAlias_eq_erase distinct,
    Keyed.get?_erase_self distinct]

/-!
### Folding the alias
-/

theorem foldAlias_of_absent {options : Options} (absent : Keyed.get? separatorAlias options = none) :
    options.foldAlias = (options, []) := by
  simp only [foldAlias, absent]

theorem withoutAlias_of_absent {options : Options} (absent : Keyed.get? separatorAlias options = none) :
    options.withoutAlias = options := by
  rw [Keyed.get?_eq_none_iff] at absent
  rw [withoutAlias, List.filter_eq_self]
  intro entry mem
  exact decide_eq_true fun isAlias => absent (isAlias ▸ List.mem_map_of_mem mem)

/-- Folding the alias settles the value that counts. -/
theorem foldAlias_of_given {options : Options} (distinct : Keyed.Distinct options) {value : Value}
    (given : options.givenSeparator = some value) : options.foldAlias.1 = options.settled value := by
  have ne : separatorKey ≠ separatorAlias := by decide
  rw [settled_eq_insert distinct]
  cases aliased : Keyed.get? separatorAlias options with
  | none =>
      have main : Keyed.get? separatorKey options = some value := by
        simpa [givenSeparator, aliased] using given
      rw [foldAlias_of_absent aliased, withoutAlias_of_absent aliased, Keyed.insert_of_get? main]
  | some own =>
      have rest := Keyed.get?_erase_of_ne ne options
      rw [withoutAlias_eq_erase distinct]
      cases main : Keyed.get? separatorKey options with
      | none =>
          obtain rfl : own = value := by simpa [givenSeparator, aliased, main] using given
          simp [foldAlias, aliased, Keyed.contains, rest, main]
      | some there =>
          obtain rfl : there = value := by simpa [givenSeparator, main] using given
          rw [Keyed.insert_of_get? (rest.trans main)]
          simp [foldAlias, aliased, Keyed.contains, rest, main]

/-- Where no value counts there is nothing to fold. -/
theorem foldAlias_of_none {options : Options} (none_given : options.givenSeparator = none) :
    options.foldAlias.1 = options.withoutAlias := by
  have absent : Keyed.get? separatorAlias options = none := (Option.or_eq_none_iff.mp none_given).2
  rw [foldAlias_of_absent absent, withoutAlias_of_absent absent]

/-!
### What normalizing leaves
-/

/-- After normalizing, the text of the separator is settled. -/
theorem normalize_left_of_ok {options : Options} (distinct : Keyed.Distinct options) {separator : Separator}
    (ok : options.normalize.result = .ok separator) :
    options.normalize.left = options.settled (.string separator.text) := by
  rw [(normalize_of_chosen (chosen_of_normalize ok)).1, settled_eq_insert distinct]
  cases given : options.givenSeparator with
  | none => rw [foldAlias_of_none given]
  | some value => rw [foldAlias_of_given distinct given, settled_eq_insert distinct, Keyed.insert_insert]

/-- Where normalizing fails, the value that it has refused is settled. -/
theorem normalize_left_of_refused {options : Options} (distinct : Keyed.Distinct options) {value : Value}
    (refused : options.Refuses value) : options.normalize.left = options.settled value := by
  rw [normalize_of_refused refused]
  exact foldAlias_of_given distinct refused.1

theorem exists_refused_of_error {options : Options} {failure : CompileError}
    (fails : options.normalize.result = .error failure) :
    ∃ value, options.Refuses value ∧ failure = .invalidSeparator value := by
  by_cases refused : ∃ value, options.Refuses value
  · obtain ⟨value, refused⟩ := refused
    rw [normalize_of_refused refused, Except.error.injEq] at fails
    exact ⟨value, refused, fails.symm⟩
  · obtain ⟨separator, ok⟩ := exists_normalize_result (not_exists.mp refused)
    rw [ok] at fails
    simp at fails

/-- A refused value that is settled is refused again, and nothing is left to fold. -/
theorem normalize_settled_of_refused {options : Options} (distinct : Keyed.Distinct options) {value : Value}
    (refused : options.Refuses value) :
    (options.settled value).normalize = ⟨options.settled value, [], .error (.invalidSeparator value)⟩ := by
  have given : (options.settled value).givenSeparator = some value := by
    rw [givenSeparator, get?_settled distinct, Option.some_or]
  rw [normalize_of_refused ⟨given, refused.2⟩, foldAlias_of_absent (get?_settled_alias distinct value)]

/-!
### Which separator is meant
-/

/-- What the options give for the separator means this one: nothing and null mean the dot, and a string means the
separator that it is the text of, below all tags. -/
inductive Means (options : Options) : Separator → Prop where
  | missing (given : options.givenSeparator = none) : Means options .dot
  | null (given : options.givenSeparator = some .null) : Means options .dot
  | named {value : Value} {separator : Separator} (given : options.givenSeparator = some value)
      (isText : value.untagged = .string separator.text) : Means options separator

/-- Normalizing answers the separator that is meant. -/
theorem normalize_result_eq_ok_iff_means {options : Options} {separator : Separator} :
    options.normalize.result = .ok separator ↔ options.Means separator := by
  rw [normalize_result_eq_ok_iff]
  cases given : options.givenSeparator with
  | none =>
      constructor
      · intro chosen
        obtain rfl : Separator.dot = separator := Except.ok.inj chosen
        exact .missing given
      · intro means
        cases means with
        | missing => rfl
        | null none_given => simp [given] at none_given
        | named none_given => simp [given] at none_given
  | some value =>
      rw [chosenSeparator_some_eq_ok_iff, Separator.ofValue?_eq_some_iff]
      constructor
      · rintro (⟨rfl, rfl⟩ | isText)
        · exact .null given
        · exact .named given isText
      · intro means
        cases means with
        | missing none_given => simp [given] at none_given
        | null isNull => exact .inl ⟨Option.some.inj (given.symm.trans isNull), rfl⟩
        | named same isText =>
            obtain rfl := Option.some.inj (given.symm.trans same)
            exact .inr isText

theorem exists_normalize_result_iff {options : Options} :
    (∃ separator, options.normalize.result = .ok separator) ↔ ∀ value, ¬ options.Refuses value := by
  constructor
  · rintro ⟨separator, ok⟩ value refused
    rw [normalize_of_refused refused] at ok
    simp at ok
  · exact exists_normalize_result

/-- That normalizing succeeds exactly where nothing is given, or null, or one of the three strings as it stands, is
true of all options but those that give one of these strings with a tag on it. -/
theorem normalize_accepts_listed_iff (options : Options) :
    ((∃ separator, options.normalize.result = .ok separator) ↔ ∀ value, ¬ options.Unlisted value) ↔
      ¬ options.TaggedSeparator := by
  rw [exists_normalize_result_iff]
  constructor
  · rintro same ⟨tag, inner, given, listed⟩
    have accepted : ∀ value, ¬ options.Refuses value := by
      rintro value ⟨other, -, unnamed⟩
      obtain rfl := Option.some.inj (given.symm.trans other)
      exact unnamed listed
    exact same.mp accepted (.tagged tag inner) ⟨given, by simp, by simp [Separator.names]⟩
  · intro untagged
    exact forall_congr' fun value => not_congr (refuses_iff_unlisted untagged value)

/-- Normalizing answers the separator that the options mean. Success or failure, it leaves no alias and all entries
that have nothing to do with the separator in their order; the options are left with the text of the separator, or
with the value that is refused, and normalizing them again answers the same and changes nothing. Read without looking
below tags, what is accepted is right for all options that do not give a tagged text of a separator. -/
theorem normalize_settles {options : Options} (distinct : Keyed.Distinct options) :
    (∀ separator, options.normalize.result = .ok separator ↔ options.Means separator) ∧
      (((∃ separator, options.normalize.result = .ok separator) ↔ ∀ value, ¬ options.Unlisted value) ↔
        ¬ options.TaggedSeparator) ∧
      separatorAlias ∉ Keyed.keys options.normalize.left ∧
      options.normalize.left.others = options.others ∧
      (∀ separator, options.normalize.result = .ok separator →
        options.normalize.left = options.settled (.string separator.text) ∧
          options.normalize.left.separator = .ok separator ∧
          options.normalize.left.normalize.result = .ok separator ∧
          options.normalize.left.normalize.left = options.normalize.left) ∧
      ∀ failure, options.normalize.result = .error failure →
        ∃ value, options.givenSeparator = some value ∧ failure = .invalidSeparator value ∧
          options.normalize.left = options.settled value ∧
          options.normalize.left.normalize.result = .error failure ∧
          options.normalize.left.normalize.left = options.normalize.left := by
  have leaves : ∃ value, options.normalize.left = options.settled value := by
    cases result : options.normalize.result with
    | ok separator => exact ⟨_, normalize_left_of_ok distinct result⟩
    | error failure =>
        obtain ⟨value, refused, -⟩ := exists_refused_of_error result
        exact ⟨value, normalize_left_of_refused distinct refused⟩
  obtain ⟨left, leaves⟩ := leaves
  refine ⟨fun separator => normalize_result_eq_ok_iff_means, normalize_accepts_listed_iff options, ?_, ?_, ?_, ?_⟩
  · rw [leaves, ← Keyed.get?_eq_none_iff, get?_settled_alias distinct]
  · rw [leaves, others_settled distinct]
  · intro separator ok
    obtain ⟨again, result⟩ := normalize_normalize distinct ok
    exact ⟨normalize_left_of_ok distinct ok, separator_normalize ok, result, again⟩
  · intro failure fails
    obtain ⟨value, refused, rfl⟩ := exists_refused_of_error fails
    have settles := normalize_left_of_refused distinct refused
    rw [settles, normalize_settled_of_refused distinct refused]
    exact ⟨value, refused.1, rfl, rfl, rfl, rfl⟩

/-- Options that give the separator twice, the second time under its alias, between others. -/
def givenTwice (value : Value) : Options :=
  [("color", .bool true), ("separator", value), ("sep", .string "-"), ("width", .null)]

/-- Given twice, the separator is left where it stood, with its text or with the value that is refused. -/
theorem normalize_settles_givenTwice :
    (givenTwice .null).normalize.result = .ok .dot ∧
      (givenTwice .null).normalize.left = [("color", .bool true), ("separator", .string "."), ("width", .null)] ∧
      (givenTwice (.string "/")).normalize.result = .error (.invalidSeparator (.string "/")) ∧
      (givenTwice (.string "/")).normalize.left =
        [("color", .bool true), ("separator", .string "/"), ("width", .null)] ∧
      (givenTwice (.string "/")).normalize.left.normalize.result = .error (.invalidSeparator (.string "/")) := by
  have distinct : ∀ value, Keyed.Distinct (givenTwice value) := by
    intro value
    show ["color", "separator", "sep", "width"].Nodup
    decide
  obtain ⟨means, -, -, -, succeeds, -⟩ := normalize_settles (distinct .null)
  obtain ⟨-, -, -, -, -, fails⟩ := normalize_settles (distinct (.string "/"))
  have ok := (means .dot).mpr (.null rfl)
  have refused : (givenTwice (.string "/")).normalize.result = .error (.invalidSeparator (.string "/")) := rfl
  obtain ⟨value, given, -, left, again, -⟩ := fails _ refused
  obtain rfl : Value.string "/" = value := Option.some.inj given
  exact ⟨ok, (succeeds .dot ok).1, refused, left, again⟩

/-- A dot with a tag on it is accepted, though it is none of the three strings as it stands. -/
theorem normalize_accepts_tagged_dot :
    (normalize [("separator", .tagged "t" (.string "."))]).result = .ok .dot ∧
      Unlisted [("separator", .tagged "t" (.string "."))] (.tagged "t" (.string ".")) :=
  ⟨rfl, by decide, by decide, by decide⟩

end Options

end ShellUnits
