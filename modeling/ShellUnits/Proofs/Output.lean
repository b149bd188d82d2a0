import ShellUnits.CommandLine.Run
import ShellUnits.Proofs.Json

/-!
What a run that fails has written by then.

Most failures come before anything is written: of the arguments, of a work directory, of loading, of
compiling. A dump is different, since it is written while it is produced. A JSON dump has begun when a key
that JSON cannot hold turns up in an option. A YAML dump that fails leaves what its buffer has spilled.

Main statement: `CommandLine.run_partial_output_iff`.
-/

namespace ShellUnits.CommandLine

/-- The run ended with status 1 and has written something. -/
def Outcome.Partial (outcome : Outcome) : Prop :=
  outcome.code = 1 ∧ outcome.stdout ≠ ""

theorem Outcome.failed_partial_iff (stdout : String) (causes : List String) :
    (Outcome.failed stdout causes).Partial ↔ stdout ≠ "" := by
  simp [Outcome.Partial, Outcome.failed]

theorem Outcome.not_partial_of_code {outcome : Outcome} (code : outcome.code ≠ 1) : ¬ outcome.Partial :=
  fun ended => code ended.1

/-- Writing the document in this format fails with some text already written. -/
def DumpBreaksOff (spilled : Value → String) (document : Document) : DumpFormat → Prop
  | .json => ∃ option ∈ document.options, ¬ option.2.HasJson
  | .yaml => (∃ failure, Yaml.write document.toValue = .error failure) ∧ spilled document.toValue ≠ ""

/-- A dump that fails leaves some text exactly when it breaks off. -/
theorem dump_breaksOff_iff (spilled : Value → String) (document : Document) (format : DumpFormat) :
    ((document.dumpWith spilled format).failure ≠ none ∧ (document.dumpWith spilled format).text ≠ "") ↔
      DumpBreaksOff spilled document format := by
  cases format with
  | json =>
      have fails := not_congr document.json_failure_eq_none_iff
      simp only [Classical.not_forall] at fails
      simp [Document.dumpWith, DumpBreaksOff, document.json_text_ne_empty, fails]
  | yaml =>
      unfold Document.dumpWith DumpBreaksOff
      cases written : Yaml.write document.toValue with
      | ok text => simp
      | error failure => simp

theorem printFunctions_not_partial (document : Document) : ¬ (printFunctions document).Partial := by
  unfold printFunctions
  split
  · simp [Outcome.failed_partial_iff]
  · exact Outcome.not_partial_of_code (by simp)

theorem printDocument_partial_iff (spilled : Value → String) (format : DumpFormat) (document : Document) :
    (printDocument spilled format document).Partial ↔
      (Pipeline.standard.run document).result = .ok () ∧
        DumpBreaksOff spilled (Pipeline.standard.run document).left format := by
  rw [← dump_breaksOff_iff]
  unfold printDocument
  cases processed : (Pipeline.standard.run document).result with
  | error failure => simp [processed, Outcome.failed_partial_iff]
  | ok done =>
      cases dumped : ((Pipeline.standard.run document).left.dumpWith spilled format).failure with
      | some failure => simp [processed, dumped, Outcome.failed_partial_iff]
      | none => simp [processed, dumped, Outcome.Partial]

section Run

variable {Place : Type} (spilled : Value → String) (fs : FileSystem Id Place)

/-- A run with these settings finds its work directory and its file, and loads this document. -/
def Loads (settings : Settings) (document : Document) : Prop :=
  ∃ place text,
    (changeDirectories fs fs.start settings.directories).run = .ok place ∧
      (fs.read place (settings.file.getD defaultFile)).run = .ok text ∧
      (Document.ofYaml text).result = .ok document

theorem perform_partial_iff (settings : Settings) :
    (perform spilled fs settings).run.Partial ↔
      settings.dryRun = true ∧ ∃ document, Loads fs settings document ∧
        (Pipeline.standard.run document).result = .ok () ∧
        DumpBreaksOff spilled (Pipeline.standard.run document).left (settings.format.getD .yaml) := by
  unfold perform Loads
  simp only [Id.run_bind]
  cases changed : (changeDirectories fs fs.start settings.directories).run with
  | error causes => simp [Outcome.failed_partial_iff]
  | ok place =>
      simp only [Id.run_bind]
      cases contents : (fs.read place (settings.file.getD defaultFile)).run with
      | error failure => simp [Loaded.fail, Outcome.failed_partial_iff, contents]
      | ok text =>
          cases loaded : (Document.ofYaml text).result with
          | error failure => simp [loaded, Outcome.failed_partial_iff, contents]
          | ok document =>
              cases dry : settings.dryRun with
              | false => simp [printFunctions_not_partial]
              | true => simp [printDocument_partial_iff, contents, loaded]

/-- A run ends with status 1 and has written something exactly when it is a dry run that goes well up to the
dump, and the dump breaks off. -/
theorem run_partial_output_iff (arguments : List String) :
    ((runWith spilled fs arguments).run.code = 1 ∧ (runWith spilled fs arguments).run.stdout ≠ "") ↔
      ∃ settings document, Request.ofArguments arguments = .run settings ∧ settings.dryRun = true ∧
        Loads fs settings document ∧ (Pipeline.standard.run document).result = .ok () ∧
        DumpBreaksOff spilled (Pipeline.standard.run document).left (settings.format.getD .yaml) := by
  unfold runWith
  cases asked : Request.ofArguments arguments with
  | run settings =>
      simp only [Request.run.injEq, exists_and_left, exists_eq_left']
      exact perform_partial_iff spilled fs settings
  | shortHelp => simp
  | longHelp => simp
  | version => simp
  | usageError => simp

end Run

/-- A null key in an option: JSON cannot hold it, and the dump has begun by then. -/
theorem run_json_null_key :
    (run (FileTree.ofFiles "/work"
        [("unitsh.yml", "options: \x7bo: \x7b~: 1\x7d\x7d\nunits:\n")]).fileSystem ["-d", "-Fjson"]).run =
      ⟨1, "\x7b\n  \"options\": \x7b\n    \"o\": \x7b\n      ", "key must be a string\n"⟩ := by
  decide +kernel

end ShellUnits.CommandLine
