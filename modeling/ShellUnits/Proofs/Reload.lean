import ShellUnits.Proofs.Loading
import ShellUnits.Proofs.Processing

/-!
A processed document that is written and loaded again.

The dump shows derived attributes, and the loader drops them. What is loaded then differs from the processed
document in nothing else, since all its units are groups: there is no text left that could be taken for a
reference. Processing it once more derives the same attributes from the same overrides and keys.

Main statements: `Document.processed_withoutDerived`, `reload_processed`.
-/

namespace ShellUnits

section Processed

variable {document : Document} {separator : Separator}

theorem Document.allGroups_processed : (document.processed separator).units.children.AllGroups :=
  Children.allGroups_derive separator _ _ document.units.expand.children

/-- A processed document is read back as it is, but for its derived attributes. -/
theorem Document.readable_processed (unreserved : document.units.children.Unreserved) :
    (document.processed separator).units.children.Readable := by
  have keys : (document.processed separator).units.children.Unreserved :=
    Children.keys_derive separator _ _ (Children.keys_expand unreserved unreserved)
  refine Children.Everywhere.imp ?_ keys Document.allGroups_processed
  intro key node unreservedKey isGroup
  cases node with
  | group attributes children => exact ⟨unreservedKey, trivial⟩
  | command text => simp [Node.asGroup?] at isGroup
  | placeholder => simp [Node.asGroup?] at isGroup
  | reference ids => simp [Node.asGroup?] at isGroup

/-- In a processed document no reference is left that could fail. -/
theorem Document.firstFailure?_processed : (document.processed separator).units.firstFailure? = none := by
  have references : (document.processed separator).units.references = [] :=
    Children.references_of_allGroups Document.allGroups_processed
  rw [Group.firstFailure?, references]
  rfl

/-- Processing gives back the derived attributes that a processed document has lost. -/
theorem Document.processed_withoutDerived (distinct : Keyed.Distinct document.options)
    (ok : document.options.normalize.result = .ok separator)
    (unnamed : document.units.attributes.qualifiedName = none) :
    (document.processed separator).withoutDerived.processed separator = document.processed separator := by
  have options : (document.processed separator).options.normalize.left = (document.processed separator).options :=
    (Options.normalize_normalize distinct ok).1
  have expanded : (document.processed separator).withoutDerived.units.expand.children =
      (document.processed separator).units.children.withoutDerived := by
    rw [← Children.expand_of_allGroups (document.processed separator).units Document.allGroups_processed]
    exact Children.expand_withoutDerived _ _
  have children : ((document.processed separator).units.children.withoutDerived).derive separator
      (nonEmpty document.units.attributes.directory) none = (document.processed separator).units.children := by
    rw [Children.derive_withoutDerived]
    exact Children.derive_derive separator _ none document.units.expand.children
  have attributes : (document.processed separator).units.attributes =
      { document.units.attributes.withoutDerived with
        workingDirectory := nonEmpty document.units.attributes.directory } := by
    simp only [Document.processed, Attributes.withoutDerived, unnamed]
  calc (document.processed separator).withoutDerived.processed separator
    _ = ⟨(document.processed separator).options.normalize.left,
          ⟨{ document.units.attributes.withoutDerived with
              workingDirectory := nonEmpty document.units.attributes.directory },
            (document.processed separator).withoutDerived.units.expand.children.derive separator
              (nonEmpty document.units.attributes.directory) none⟩⟩ := rfl
    _ = document.processed separator := by rw [options, ← attributes, expanded, children]

end Processed

/-- What a run leaves of a loaded document can be written, loaded and run again with the same outcome. -/
theorem reload_processed {value : Value} {document : Document} (wellKeyed : value.WellKeyed)
    (loads : (Document.ofValue value).result = .ok document)
    (succeeds : (Pipeline.standard.run document).result = .ok ()) :
    ∃ reloaded,
      (Document.ofValue (Pipeline.standard.run document).left.toValue).result = .ok reloaded ∧
        reloaded = (Pipeline.standard.run document).left.withoutDerived ∧
        (Pipeline.standard.run reloaded).result = .ok () ∧
        (Pipeline.standard.run reloaded).left = (Pipeline.standard.run document).left ∧
        (compile reloaded).result = (compile document).result := by
  obtain ⟨plain, unreserved, distinct⟩ := Document.ofValue_spec wellKeyed loads
  obtain ⟨separator, ok, resolves, left⟩ := Pipeline.processed_of_standard_run succeeds
  have unnamed : document.units.attributes.qualifiedName = none := by rw [← plain]; rfl
  have okAgain : (document.processed separator).withoutDerived.options.normalize.result = .ok separator :=
    (Options.normalize_normalize distinct ok).2
  have resolvesAgain : (document.processed separator).withoutDerived.units.firstFailure? = none :=
    Group.firstFailure?_withoutDerived.mpr Document.firstFailure?_processed
  have same := Document.processed_withoutDerived distinct ok unnamed
  obtain ⟨leftAgain, succeedsAgain⟩ := Pipeline.standard_run_of_resolved okAgain resolvesAgain
  rw [left]
  refine ⟨_, Document.ofValue_toValue (Document.readable_processed unreserved), rfl, succeedsAgain, ?_, ?_⟩
  · rw [leftAgain, same]
  · rw [(compile_of_resolved okAgain resolvesAgain).2, same, (compile_of_resolved ok resolves).2]

/-- Two references that address one another: each becomes a command with the text of the other. -/
def Document.swapped : Document where
  options := [("sep", .string ":")]
  units := { attributes := { directory := some "/srv" },
             children := .cons "a" (.reference ["b"]) (.cons "b" (.reference ["a"]) .nil) }

theorem reload_swapped :
    (Pipeline.standard.run .swapped).result = .ok () ∧
      ∃ reloaded, (Document.ofValue (Pipeline.standard.run .swapped).left.toValue).result = .ok reloaded ∧
        (compile reloaded).result =
          .ok [⟨"a", some "/srv", some "$(a)"⟩, ⟨"b", some "/srv", some "$(b)"⟩] := by
  have wellKeyed : Document.swapped.toValue.WellKeyed := by decide
  have loads : (Document.ofValue Document.swapped.toValue).result = .ok .swapped := by decide
  have succeeds : (Pipeline.standard.run .swapped).result = .ok () := by decide
  obtain ⟨reloaded, read, -, -, -, compiled⟩ := reload_processed wellKeyed loads succeeds
  refine ⟨succeeds, reloaded, read, ?_⟩
  rw [compiled]
  decide
end ShellUnits
