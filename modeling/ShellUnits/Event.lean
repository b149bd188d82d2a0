import ShellUnits.Unit

/-!
What the passes report while they run.

An event is a cause; its level, message and fields are functions of the cause.

Main definitions: `Stage`, `Event`, `Level`.
-/

namespace ShellUnits

/-- The passes over a whole document. -/
inductive Stage where
  | normalizeOptions
  | resolveReferences
  | assignPaths
  | assignNames
deriving DecidableEq, Repr, Inhabited

namespace Stage

def all : List Stage := [normalizeOptions, resolveReferences, assignPaths, assignNames]

def name : Stage → String
  | normalizeOptions => "normalize-options"
  | resolveReferences => "resolve-references"
  | assignPaths => "assign-paths"
  | assignNames => "assign-names"

/-- The stage with this name. -/
def ofName? (name : String) : Option Stage :=
  all.find? fun stage => stage.name == name

end Stage

/-- How urgent an event is. -/
inductive Level where
  | error
  | warn
  | info
  | debug
  | trace
deriving DecidableEq, Repr, Inhabited

namespace Level

def name : Level → String
  | error => "ERROR"
  | warn => "WARN"
  | info => "INFO"
  | debug => "DEBUG"
  | trace => "TRACE"

/-- The place of a level in the order from the most to the least severe. -/
def rank : Level → Nat
  | error => 0
  | warn => 1
  | info => 2
  | debug => 3
  | trace => 4

/-- Whether a level is shown when events are shown down to `threshold`. -/
def isShownAt (threshold level : Level) : Bool := level.rank ≤ threshold.rank

end Level

/-- Something that a pass reports. -/
inductive Event where
  /-- A top-level key that is neither options nor units. -/
  | unknownTopLevelKey (key : String)
  /-- The root units carry a command, which no function will hold. -/
  | rootCommand
  /-- An attribute that is derived again, at the given location. -/
  | derivedAttribute (location : List String) (key : String)
  /-- A reserved key that is no attribute, at the given location. -/
  | unknownAttribute (location : List String) (key : String)
  /-- The separator is given under both of its keys. -/
  | separatorGivenTwice
  /-- An option other than the separator. -/
  | unrecognizedOption (key : String)
  /-- A stage is about to run. -/
  | runningStage (stage : Stage)
  /-- The reference under this key was replaced by its target. -/
  | resolved (key : String) (ids : List String)
  /-- The reference under this key was left over and becomes a command. -/
  | literalReference (key : String) (ids : List String)
  /-- A group was given this name. -/
  | named (qualifiedName : String)
  /-- A unit that is not a group was given no name. -/
  | notGroup (key : String)
  /-- A function without a body was not written. -/
  | functionWithoutBody (name : String)
deriving DecidableEq, Repr

namespace Event

def level : Event → Level
  | unknownTopLevelKey _ | rootCommand | unknownAttribute _ _ | separatorGivenTwice
  | literalReference _ _ => .warn
  | derivedAttribute _ _ | unrecognizedOption _ | runningStage _ | notGroup _
  | functionWithoutBody _ => .debug
  | resolved _ _ | named _ => .trace

def message : Event → String
  | unknownTopLevelKey _ => "ignoring unknown top-level key"
  | rootCommand => s!"ignoring `{commandKey}` on the root units, the root has no function"
  | derivedAttribute _ _ => "derived attribute, ignoring"
  | unknownAttribute _ _ => "ignoring unknown reserved attribute"
  | separatorGivenTwice => "both `separator` and `sep` are set, using `separator`"
  | unrecognizedOption _ => "ignoring unrecognized option"
  | runningStage _ => "running stage"
  | resolved _ _ => "resolved"
  | literalReference _ _ => "unresolved reference is used as a literal command"
  | named _ => "named"
  | notGroup _ => "skipping unit that is not a namespace"
  | functionWithoutBody _ => "skipping function without body"

/-- Names and texts of what the event is about. -/
def fields : Event → List (String × String)
  | unknownTopLevelKey key => [("key", key)]
  | rootCommand => []
  | derivedAttribute location key => [("location", ".".intercalate location), ("key", key)]
  | unknownAttribute location key => [("location", ".".intercalate location), ("key", key)]
  | separatorGivenTwice => []
  | unrecognizedOption key => [("key", key)]
  | runningStage stage => [("stage", stage.name)]
  | resolved key ids => [("key", key), ("reference", formatReference ids)]
  | literalReference key ids => [("key", key), ("reference", formatReference ids)]
  | named qualifiedName => [("qualified_name", qualifiedName)]
  | notGroup key => [("key", key)]
  | functionWithoutBody name => [("name", name)]

end Event

end ShellUnits
