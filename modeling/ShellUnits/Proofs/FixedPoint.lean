import ShellUnits.Proofs.Reload

/-!
Stages that run again over a processed document.

What the standard pipeline leaves is a fixed point of each of its stages by itself: the separator stands
under its key as a string, no unit is left that could be taken for a reference, and directories and names are
derived from overrides and keys, which no stage changes. So it does not matter which stages run again, nor in
which order or how often.

Main statements: `Document.keptBy_processed`, `Pipeline.run_of_kept`, `Pipeline.run_after_standard`.
-/

namespace ShellUnits

/-- The stage succeeds on the document and leaves it exactly as it is. -/
def Document.KeptBy (document : Document) (stage : Stage) : Prop :=
  (stage.run document).left = document ∧ (stage.run document).result = .ok ()

/-- What each stage of a pipeline keeps, the whole pipeline keeps. -/
theorem Pipeline.run_of_kept {document : Document} {pipeline : Pipeline}
    (kept : ∀ stage ∈ pipeline, document.KeptBy stage) :
    (pipeline.run document).left = document ∧ (pipeline.run document).result = .ok () := by
  induction pipeline with
  | nil => exact ⟨rfl, rfl⟩
  | cons stage rest ih =>
      obtain ⟨left, ok⟩ := kept stage List.mem_cons_self
      have later : (Pipeline.run document rest).left = document ∧
          (Pipeline.run document rest).result = .ok () := by
        apply ih
        intro other mem
        exact kept other (List.mem_cons_of_mem stage mem)
      rw [run_cons_of_ok ok, left]
      exact later

/-!
### One stage over a processed document
-/

section Processed

variable {document : Document} {separator : Separator}

/-- The options are normalized already. -/
theorem Document.keptBy_normalizeOptions (distinct : Keyed.Distinct document.options)
    (ok : document.options.normalize.result = .ok separator) :
    (document.processed separator).KeptBy .normalizeOptions := by
  obtain ⟨unchanged, okAgain⟩ := Options.normalize_normalize distinct ok
  have okProcessed : (document.processed separator).options.normalize.result = .ok separator := okAgain
  obtain ⟨result, left⟩ := Stage.run_normalizeOptions okProcessed
  refine ⟨?_, result⟩
  rw [left]
  exact congrArg (fun options => { document.processed separator with options }) unchanged

/-- No references are left, and what was the text of one is a command now. -/
theorem Document.keptBy_resolveReferences : (document.processed separator).KeptBy .resolveReferences := by
  have resolves : (document.processed separator).units.firstFailure? = none := Document.firstFailure?_processed
  have expanded : (document.processed separator).units.expand = (document.processed separator).units := by
    rw [Group.expand, Children.expand_of_allGroups _ Document.allGroups_processed]
  constructor
  · simp only [Stage.run, Group.resolveReferences_left_of_ok resolves, expanded]
  · simp only [Stage.run, Group.resolveReferences_result, resolves, endOf]

/-- Overrides are kept apart from the directories derived from them, so none is joined twice. -/
theorem Document.keptBy_assignPaths : (document.processed separator).KeptBy .assignPaths := by
  refine ⟨?_, rfl⟩
  simp only [Stage.run, Group.assignPaths_fst]
  simp only [Document.processed, Children.inherit_derive]

/-- The separator is read as the one that has been chosen, and keys have not changed. -/
theorem Document.keptBy_assignNames (ok : document.options.normalize.result = .ok separator) :
    (document.processed separator).KeptBy .assignNames := by
  have separates : (document.processed separator).options.separator = .ok separator :=
    Options.separator_normalize ok
  constructor
  · simp only [Stage.run, separates, Group.assignNames_fst]
    simp only [Document.processed, Children.named_derive]
  · simp only [Stage.run, separates]

/-- A processed document is kept by each stage. -/
theorem Document.keptBy_processed (distinct : Keyed.Distinct document.options)
    (ok : document.options.normalize.result = .ok separator) (stage : Stage) :
    (document.processed separator).KeptBy stage := by
  cases stage with
  | normalizeOptions => exact Document.keptBy_normalizeOptions distinct ok
  | resolveReferences => exact Document.keptBy_resolveReferences
  | assignPaths => exact Document.keptBy_assignPaths
  | assignNames => exact Document.keptBy_assignNames ok

end Processed

/-- Once the standard pipeline has succeeded, any stages in any order succeed and change nothing, and compiling
again lists the same functions. -/
theorem Pipeline.run_after_standard {document : Document} (distinct : Keyed.Distinct document.options)
    (succeeds : (standard.run document).result = .ok ()) :
    (∀ pipeline : Pipeline,
      (pipeline.run (standard.run document).left).result = .ok () ∧
        (pipeline.run (standard.run document).left).left = (standard.run document).left) ∧
      (compile (standard.run document).left).result = (compile document).result ∧
      (compile (standard.run document).left).left = (compile document).left := by
  obtain ⟨separator, ok, -, processed⟩ := Pipeline.processed_of_standard_run succeeds
  have kept : ∀ pipeline : Pipeline,
      (pipeline.run (standard.run document).left).left = (standard.run document).left ∧
        (pipeline.run (standard.run document).left).result = .ok () := by
    intro pipeline
    apply Pipeline.run_of_kept
    intro stage _
    rw [processed]
    exact Document.keptBy_processed distinct ok stage
  obtain ⟨left, again⟩ := kept standard
  refine ⟨fun pipeline => (kept pipeline).symm, ?_, ?_⟩
  · simp only [compile, left, again, succeeds]
  · simp only [compile, left]

/-- Directories two deep and one of them outdated, a copy of them that holds a copy of a reference, and a
separator under its alias. -/
def Document.layered : Document where
  options := [("color", .bool true), ("sep", .string "-")]
  units :=
    { attributes := { directory := some "/srv" }
      children :=
        .cons "app" (.group { directory := some "app", workingDirectory := some "old" }
          (.cons "run" (.command "make") (.cons "also" (.reference ["app", "run"]) .nil))) <|
        .cons "copy" (.reference ["app"]) .nil }

theorem Pipeline.run_after_standard_layered :
    Keyed.Distinct Document.layered.options ∧ (standard.run .layered).result = .ok () ∧
      (run (standard.run .layered).left
          [.assignPaths, .assignNames, .resolveReferences, .assignPaths, .normalizeOptions]).left =
        (standard.run .layered).left ∧
      (compile (standard.run .layered).left).result =
        .ok [⟨"app", some "/srv/app", none⟩, ⟨"app-run", some "/srv/app", some "make"⟩,
          ⟨"app-also", some "/srv/app", some "make"⟩, ⟨"copy", some "/srv/app", none⟩,
          ⟨"copy-run", some "/srv/app", some "make"⟩, ⟨"copy-also", some "/srv/app", some "$(app.run)"⟩] := by
  have distinct : Keyed.Distinct Document.layered.options := by decide
  have succeeds : (standard.run .layered).result = .ok () := by decide
  obtain ⟨kept, compiled, -⟩ := Pipeline.run_after_standard distinct succeeds
  refine ⟨distinct, succeeds, (kept _).2, ?_⟩
  rw [compiled]
  decide

end ShellUnits
