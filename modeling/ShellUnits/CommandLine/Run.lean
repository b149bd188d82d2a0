import ShellUnits.CommandLine.Arguments
import ShellUnits.CommandLine.FileSystem
import ShellUnits.CommandLine.Help
import ShellUnits.Function.Script
import ShellUnits.Pipeline

/-!
A run of the command line.

A run changes to the work directories, loads a document and compiles it, and prints the functions or, in a
dry run, the processed document. What goes wrong is told on the error output, from the outermost cause to
the innermost, and ends the run with status 1.

Main definitions: `Outcome`, `runWith`, `run`.
-/

namespace ShellUnits.CommandLine

/-- What a run leaves behind. -/
structure Outcome where
  code : Nat
  stdout : String := ""
  stderr : String := ""
deriving DecidableEq, Repr

/-- The name of the file that is loaded if no other is given. -/
def defaultFile : String := "unitsh.yml"

/-- A run that failed, with its causes. -/
def Outcome.failed (stdout : String) (causes : List String) : Outcome :=
  ⟨1, stdout, String.join (causes.map (· ++ "\n"))⟩

/-- The causes of a failed loading. What is wrong with the text of a document is not told. -/
def LoadError.causes : LoadError → List String
  | .unreadable failure => [(LoadError.unreadable failure).message, failure.message]
  | failure => [failure.message]

/-- Changes to the directories one after the other; a failure gives its causes. -/
def changeDirectories {m : Type → Type} {Place : Type} [Monad m] (fs : FileSystem m Place)
    (place : Place) : List String → m (Except (List String) Place)
  | [] => return .ok place
  | path :: rest => do
    match ← fs.resolve place path with
    | .error failure =>
      return .error ["Failed to resolve path for -C/--directory " ++ path, failure.message]
    | .ok next =>
      match ← fs.enter next with
      | .error failure =>
        return .error ["Failed to set work directory to " ++ fs.pathOf next, failure.message]
      | .ok () => changeDirectories fs next rest

/-- Prints the functions of a document. -/
def printFunctions (document : Document) : Outcome :=
  match (compile document).result with
  | .error failure => .failed "" [failure.message]
  | .ok functions => ⟨0, Script.text functions, ""⟩

/-- Prints a document after processing. What was written before a failure stays written. -/
def printDocument (spilled : Value → String) (format : DumpFormat) (document : Document) : Outcome :=
  let pass := Pipeline.standard.run document
  match pass.result with
  | .error failure => .failed "" [failure.message]
  | .ok () =>
    let dumped := pass.left.dumpWith spilled format
    match dumped.failure with
    | some failure => .failed dumped.text [failure.message]
    | none => ⟨0, dumped.text, ""⟩

/-- Does what the settings say. -/
def perform {m : Type → Type} {Place : Type} [Monad m] (spilled : Value → String) (fs : FileSystem m Place)
    (settings : Settings) : m Outcome := do
  match ← changeDirectories fs fs.start settings.directories with
  | .error causes => return .failed "" causes
  | .ok place =>
    let file := settings.file.getD defaultFile
    let loaded : Loaded Document := match ← fs.read place file with
      | .error failure => .fail (.unreadable failure)
      | .ok text => Document.ofYaml text
    match loaded.result with
    | .error failure => return .failed "" (("Failed to load " ++ file) :: LoadError.causes failure)
    | .ok document =>
      if settings.dryRun then return printDocument spilled (settings.format.getD .yaml) document
      else return printFunctions document

/-- Runs the command line, where this much is spilled of documents that have no written form. -/
def runWith {m : Type → Type} {Place : Type} [Monad m] (spilled : Value → String) (fs : FileSystem m Place)
    (arguments : List String) : m Outcome :=
  match Request.ofArguments arguments with
  | .run settings => perform spilled fs settings
  | .shortHelp => return ⟨0, shortHelpText, ""⟩
  | .longHelp => return ⟨0, longHelpText, ""⟩
  | .version => return ⟨0, versionText, ""⟩
  | .usageError => return ⟨2, "", usageErrorText⟩

/-- Runs the command line. -/
def run {m : Type → Type} {Place : Type} [Monad m] (fs : FileSystem m Place)
    (arguments : List String) : m Outcome :=
  runWith (fun _ => "") fs arguments

end ShellUnits.CommandLine
