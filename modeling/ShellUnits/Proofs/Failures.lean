import ShellUnits.Proofs.Processing

/-!
When compiling fails, and what it leaves then.

There are two causes: a separator that is refused, and, if none is, the first reference of the raw tree in
pre-order that cannot be replaced. A failure ends the run before anything is derived.

The value of the separator is compared below its tags, so a tagged `.` passes for a separator. Whether that
is refused is the only difference to comparing the value itself.

Main statement: `compile_result_eq_error_iff`.
-/

namespace ShellUnits

/-!
### Causes
-/

/-- The reference cannot be replaced by a unit of `raw`: it has no ids, or following them fails. -/
inductive Group.Unresolvable (raw : Group) (reference : PlacedReference) : CompileError → Prop where
  | noIds (empty : reference.ids = []) :
      Group.Unresolvable raw reference (.emptyReferencePath reference.location)
  | missing {searched : List String} {id : String} {context : Node}
      (fails : raw.lookup reference.ids = .error (.unresolvedReference reference.ids searched id context)) :
      Group.Unresolvable raw reference (.unresolvedReference reference.ids searched id context)

/-- There is this cause for a failure, where `refuses` says which separators are not accepted. A reference
counts only if the separator is accepted and all references before it can be replaced. -/
inductive Document.FailsWith (refuses : Options → Value → Prop) (document : Document) :
    CompileError → Prop where
  | separator {value : Value} (refused : refuses document.options value) :
      Document.FailsWith refuses document (.invalidSeparator value)
  | reference {before after : List PlacedReference} {reference : PlacedReference} {failure : CompileError}
      (accepted : ∀ value, ¬ refuses document.options value)
      (inOrder : document.units.references = before ++ reference :: after)
      (resolve : ∀ earlier ∈ before, ∃ target, document.units.get? earlier.ids = some target)
      (fails : document.units.Unresolvable reference failure) :
      Document.FailsWith refuses document failure

/-- The options give this value for the separator, and it is none of the three strings as it stands. -/
def Options.Unlisted (options : Options) (value : Value) : Prop :=
  options.givenSeparator = some value ∧ value ≠ .null ∧ value ∉ Separator.names

/-- The options give one of the three strings with a tag on it for the separator. -/
def Options.TaggedSeparator (options : Options) : Prop :=
  ∃ tag inner, options.givenSeparator = some (.tagged tag inner) ∧ inner.untagged ∈ Separator.names

theorem Group.failure?_eq_some_iff {raw : Group} {reference : PlacedReference} {failure : CompileError} :
    raw.failure? reference = some failure ↔ raw.Unresolvable reference failure := by
  unfold Group.failure?
  constructor
  · intro fails
    split at fails
    · rename_i empty
      exact Option.some.inj fails ▸ .noIds empty
    · rename_i someIds
      cases h : raw.lookup reference.ids with
      | ok target => simp [h] at fails
      | error other =>
          obtain ⟨searched, id, context, rfl⟩ := Group.lookup_eq_error someIds h
          simp only [h, Option.some.injEq] at fails
          exact fails ▸ .missing h
  · intro fails
    cases fails with
    | noIds empty => rw [if_pos empty]
    | missing fails =>
        have someIds : reference.ids ≠ [] := by
          intro empty
          simp [empty, Group.lookup] at fails
        rw [if_neg someIds, fails]

/-- There is a reason why a reference cannot be replaced exactly when its ids address no unit. -/
theorem Group.exists_unresolvable_iff {raw : Group} {reference : PlacedReference} :
    (∃ failure, raw.Unresolvable reference failure) ↔ raw.get? reference.ids = none := by
  calc (∃ failure, raw.Unresolvable reference failure)
    _ ↔ ∃ failure, raw.failure? reference = some failure := by simp only [Group.failure?_eq_some_iff]
    _ ↔ raw.failure? reference ≠ none := Option.ne_none_iff_exists'.symm
    _ ↔ ¬ ∃ target, raw.get? reference.ids = some target := not_congr Group.failure?_eq_none_iff
    _ ↔ raw.get? reference.ids = none := by rw [← Option.ne_none_iff_exists', Ne, Classical.not_not]

theorem Group.firstFailure?_eq_some_iff {group : Group} {failure : CompileError} :
    group.firstFailure? = some failure ↔
      ∃ before reference after, group.references = before ++ reference :: after ∧
        (∀ earlier ∈ before, ∃ target, group.get? earlier.ids = some target) ∧
        group.Unresolvable reference failure := by
  simp only [Group.firstFailure?, List.findSome?_eq_some_iff, Group.failure?_eq_none_iff,
    Group.failure?_eq_some_iff]
  constructor
  · rintro ⟨before, reference, after, inOrder, fails, resolve⟩
    exact ⟨before, reference, after, inOrder, resolve, fails⟩
  · rintro ⟨before, reference, after, inOrder, resolve, fails⟩
    exact ⟨before, reference, after, inOrder, fails, resolve⟩

/-!
### Strings with tags
-/

/-- Without a tag on it, the value itself is what is compared. -/
theorem Options.refuses_iff_unlisted {options : Options} (untagged : ¬ options.TaggedSeparator) (value : Value) :
    options.Refuses value ↔ options.Unlisted value := by
  cases value with
  | tagged tag inner =>
      have notListed : Value.tagged tag inner ∉ Separator.names := by simp [Separator.names]
      constructor
      · rintro ⟨given, notNull, -⟩
        exact ⟨given, notNull, notListed⟩
      · rintro ⟨given, notNull, -⟩
        exact ⟨given, notNull, fun listed => untagged ⟨tag, inner, given, listed⟩⟩
  | null => exact Iff.rfl
  | bool value => exact Iff.rfl
  | number value => exact Iff.rfl
  | string text => exact Iff.rfl
  | sequence items => exact Iff.rfl
  | mapping entries => exact Iff.rfl

/-- Only what is refused among the options of the document counts. -/
theorem Document.FailsWith.of_iff {refuses others : Options → Value → Prop} {document : Document}
    {failure : CompileError} (same : ∀ value, refuses document.options value ↔ others document.options value)
    (fails : document.FailsWith refuses failure) : document.FailsWith others failure := by
  cases fails with
  | separator refused => exact .separator ((same _).mp refused)
  | reference accepted inOrder resolve fails =>
      refine .reference ?_ inOrder resolve fails
      intro value refused
      exact accepted value ((same value).mpr refused)

/-!
### How a run that fails ends
-/

/-- A pass stopped before anything was derived: in the first stage with all units as they were, or in the
second one with nothing but copies in the place of references. -/
inductive Document.StoppedBy (document : Document) (pass : Pass Document (List Function)) :
    CompileError → Prop where
  | normalizing {value : Value} (units : pass.left.units = document.units)
      (stages : pass.stages = [.normalizeOptions]) : Document.StoppedBy document pass (.invalidSeparator value)
  | resolving {failure : CompileError} (attributes : pass.left.units.attributes = document.units.attributes)
      (children : document.units.children.CopiedFrom document.units pass.left.units.children)
      (stages : pass.stages = [.normalizeOptions, .resolveReferences])
      (cause : ∃ reference ∈ document.units.references, document.units.Unresolvable reference failure) :
      Document.StoppedBy document pass failure

section Failing

variable {document : Document} {failure : CompileError}

theorem compile_result_of_error (fails : (Pipeline.standard.run document).result = .error failure) :
    (compile document).result = .error failure := by
  simp only [compile, fails]
  rfl

/-- Compiling fails where there is a cause. -/
theorem compile_result_of_failsWith (cause : document.FailsWith Options.Refuses failure) :
    (compile document).result = .error failure ∧ document.StoppedBy (compile document) failure := by
  cases cause with
  | separator refused =>
      obtain ⟨left, fails, stages⟩ := Pipeline.standard_run_of_refused refused
      refine ⟨compile_result_of_error fails, .normalizing ?_ stages⟩
      show (Pipeline.standard.run document).left.units = document.units
      rw [left]
  | reference accepted inOrder resolve unresolvable =>
      rename_i before after reference
      obtain ⟨separator, ok⟩ := Options.exists_normalize_result accepted
      have first := Group.firstFailure?_eq_some_iff.mpr ⟨_, _, _, inOrder, resolve, unresolvable⟩
      obtain ⟨left, fails, stages⟩ := Pipeline.standard_run_of_unresolved ok first
      obtain ⟨attributes, children⟩ := document.units.resolveReferences_copied
      have mem : reference ∈ document.units.references := by
        rw [inOrder]
        exact List.mem_append_right before List.mem_cons_self
      have units : (compile document).left.units = document.units.resolveReferences.left :=
        congrArg Document.units left
      refine ⟨compile_result_of_error fails, .resolving ?_ ?_ stages ⟨_, mem, unresolvable⟩⟩
      · rw [units, attributes]
      · rw [units]
        exact children

/-- Compiling does not fail without a cause. -/
theorem failsWith_of_compile_result (fails : (compile document).result = .error failure) :
    document.FailsWith Options.Refuses failure := by
  by_cases refused : ∃ value, document.options.Refuses value
  · obtain ⟨value, refused⟩ := refused
    have cause : document.FailsWith Options.Refuses (.invalidSeparator value) := .separator refused
    rw [(compile_result_of_failsWith cause).1, Except.error.injEq] at fails
    exact fails ▸ cause
  · have accepted : ∀ value, ¬ document.options.Refuses value := not_exists.mp refused
    obtain ⟨separator, ok⟩ := Options.exists_normalize_result accepted
    cases first : document.units.firstFailure? with
    | none => simp [(compile_of_resolved ok first).2] at fails
    | some other =>
        obtain ⟨before, reference, after, inOrder, resolve, unresolvable⟩ :=
          Group.firstFailure?_eq_some_iff.mp first
        have cause : document.FailsWith Options.Refuses other := .reference accepted inOrder resolve unresolvable
        rw [(compile_result_of_failsWith cause).1, Except.error.injEq] at fails
        exact fails ▸ cause

end Failing

/-- Compiling fails exactly for these causes, and any failure stops it before anything is derived. What
normalizing lets pass is read as a separator afterwards. If separators are compared without looking below
tags, the causes are the same exactly for documents that do not give a separator with a tag on it. -/
theorem compile_result_eq_error_iff (document : Document) :
    (∀ failure, (compile document).result = .error failure ↔ document.FailsWith Options.Refuses failure) ∧
      (∀ failure, (compile document).result = .error failure → document.StoppedBy (compile document) failure) ∧
      (∀ reference ∈ document.units.references,
        locationText reference.location = ".".intercalate reference.location) ∧
      (∀ separator, document.options.normalize.result = .ok separator →
        document.options.normalize.left.separator = .ok separator) ∧
      ((∀ failure, (compile document).result = .error failure ↔ document.FailsWith Options.Unlisted failure) ↔
        ¬ document.options.TaggedSeparator) := by
  have fails_iff : ∀ failure,
      (compile document).result = .error failure ↔ document.FailsWith Options.Refuses failure := by
    intro failure
    constructor
    · exact failsWith_of_compile_result
    · intro cause
      exact (compile_result_of_failsWith cause).1
  refine ⟨fails_iff, ?_, ?_, ?_, ?_⟩
  · intro failure fails
    exact (compile_result_of_failsWith ((fails_iff failure).mp fails)).2
  · intro reference mem
    rw [locationText, if_neg (Children.references_location_ne_nil document.units.children mem)]
  · intro separator ok
    exact Options.separator_normalize ok
  · constructor
    · rintro unlisted_iff ⟨tag, inner, given, listed⟩
      have unlisted : document.options.Unlisted (.tagged tag inner) :=
        ⟨given, by simp, by simp [Separator.names]⟩
      have fails := (unlisted_iff _).mpr (.separator unlisted)
      cases (fails_iff _).mp fails with
      | separator refused => exact refused.2.2 listed
      | reference accepted inOrder resolve unresolvable => cases unresolvable
    · intro untagged failure
      have same := Options.refuses_iff_unlisted untagged
      rw [fails_iff failure]
      constructor
      · exact Document.FailsWith.of_iff same
      · exact Document.FailsWith.of_iff fun value => (same value).symm

/-- A dot with a tag on it is taken for a separator, though it is none of the three strings. -/
theorem compile_accepts_tagged_dot :
    (compile ⟨[("separator", .tagged "t" (.string "."))], {}⟩).result = .ok [] ∧
      Document.FailsWith Options.Unlisted ⟨[("separator", .tagged "t" (.string "."))], {}⟩
        (.invalidSeparator (.tagged "t" (.string "."))) :=
  ⟨rfl, .separator ⟨by decide, by decide, by decide⟩⟩

end ShellUnits
