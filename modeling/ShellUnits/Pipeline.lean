import ShellUnits.Document.Basic
import ShellUnits.Function.Preorder
import ShellUnits.Inherit
import ShellUnits.Naming
import ShellUnits.Resolve

/-!
Running stages over a document, and compiling it.

Order matters: references are resolved in the raw tree, before directories and names exist. The default
pipeline runs all stages in the order in which they are declared; any other sequence is possible too. The
first failure ends a run.

Main definitions: `Stage.run`, `Pipeline.run`, `Pipeline.standard`, `compile`.
-/

namespace ShellUnits

/-- Runs one stage. -/
def Stage.run (document : Document) : Stage → Pass Document Unit
  | .normalizeOptions =>
    let pass := document.options.normalize
    ⟨{ document with options := pass.left }, pass.events, pass.result.map fun _ => ()⟩
  | .resolveReferences =>
    let pass := document.units.resolveReferences
    ⟨{ document with units := pass.left }, pass.events, pass.result⟩
  | .assignPaths =>
    let (units, events) := document.units.assignPaths
    ⟨{ document with units }, events, .ok ()⟩
  | .assignNames =>
    match document.options.separator with
    | .error failure => ⟨document, [], .error failure⟩
    | .ok separator =>
      let (units, events) := document.units.assignNames separator
      ⟨{ document with units }, events, .ok ()⟩

/-- Stages that run one after the other. -/
abbrev Pipeline := List Stage

namespace Pipeline

/-- The stages that make functions of a document. -/
def standard : Pipeline := Stage.all

/-- Runs the stages up to the first failure. -/
def run (document : Document) : Pipeline → Pass Document Unit
  | [] => ⟨document, [], .ok ()⟩
  | stage :: rest =>
    let pass := stage.run document
    let events := .runningStage stage :: pass.events
    match pass.result with
    | .error failure => ⟨pass.left, events, .error failure⟩
    | .ok () =>
      let next := run pass.left rest
      { next with events := events ++ next.events }

end Pipeline

/-- Processes a document and lists its functions. -/
def compile (document : Document) : Pass Document (List Function) :=
  let pass := Pipeline.standard.run document
  ⟨pass.left, pass.events, pass.result.map fun _ => pass.left.units.functions⟩

end ShellUnits
