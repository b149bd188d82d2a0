import ShellUnits.Event
import ShellUnits.Separator
import ShellUnits.Yaml.Writer
import ShellUnits.Value.Inspect

/-!
Why compiling fails, and what a pass leaves behind when it does.

Main definitions: `CompileError`, `CompileError.message`, `Pass`.
-/

namespace ShellUnits

/-- Why a document cannot be compiled. -/
inductive CompileError where
  /-- The separator option holds a value that names no separator. -/
  | invalidSeparator (value : Value)
  /-- The reference at this location has no ids; the empty location is the root. -/
  | emptyReferencePath (location : List String)
  /-- Following `ids`, no unit `id` was found in `context`, the unit that the ids `searched` lead to. -/
  | unresolvedReference (ids searched : List String) (id : String) (context : Node)
deriving DecidableEq, Repr

/-- The text of a location in error texts. -/
def locationText (location : List String) : String :=
  if location = [] then "<root>" else ".".intercalate location

/-- The text of a value in error texts: a string as it is between quotes, any other value as a YAML
    document, and a value that has no written form by its inspection text. -/
def describe : Value → String
  | .string text => "\"" ++ text ++ "\""
  | value =>
    match Yaml.write value with
    | .ok text => String.ofList (Text.dropTrailing Text.isWhiteSpace text.toList)
    | .error _ => value.inspect

def CompileError.message : CompileError → String
  | .invalidSeparator value =>
    "Invalid value " ++ describe value ++ " for option `separator`, expected one of " ++ Separator.listing
  | .emptyReferencePath location => "Reference at `" ++ locationText location ++ "` has an empty path"
  | .unresolvedReference ids searched id context =>
    "Unable to resolve " ++ formatReference ids ++ ": no unit `" ++ id ++ "` in `" ++
      locationText searched ++ "` (" ++ context.summary ++ ")"

/-- A pass that has run on a value: what it left behind, also after a failure, what it reported, and how
    it ended. -/
structure Pass (α β : Type) where
  left : α
  events : List Event := []
  result : Except CompileError β

end ShellUnits
