import ShellUnits.CompileError

/-!
Why loading a document fails.

Main definitions: `Malformation`, `LoadError`, `LoadError.message`, `Loaded`.
-/

namespace ShellUnits

/-- What is wrong with a value that should stand for a part of a document. -/
inductive Malformation where
  | keyNotString (key : Value)
  | unitsNotMapping
  | optionsNotMapping
  | attributeNotString (key : String)
  | sequence
  | tag (name : String)
deriving DecidableEq, Repr

def Malformation.reason : Malformation → String
  | keyNotString key => "keys must be strings, found " ++ key.inspect
  | unitsNotMapping => "`units` must be a mapping"
  | optionsNotMapping => "`options` must be a mapping"
  | attributeNotString key => s!"reserved attribute `{key}` must be a string"
  | sequence => "sequences are not supported"
  | tag name => "unsupported tag " ++ displayTag name

/-- Why a file cannot be read as text. -/
inductive ReadFailure where
  | notFound
  | notDirectory
  | isDirectory
  | notText
  | other (description : String)
deriving DecidableEq, Repr

def ReadFailure.message : ReadFailure → String
  | notFound => "No such file or directory (os error 2)"
  | notDirectory => "Not a directory (os error 20)"
  | isDirectory => "Is a directory (os error 21)"
  | notText => "stream did not contain valid UTF-8"
  | other description => description

/-- Why a document cannot be loaded. -/
inductive LoadError where
  | unreadable (failure : ReadFailure)
  | notYaml
  | missingUnits
  | malformed (location : List String) (what : Malformation)
deriving DecidableEq, Repr

def LoadError.message : LoadError → String
  | unreadable _ => "IO error"
  | notYaml => "Unable to parse yaml document"
  | missingUnits => "Document has no `units`"
  | malformed location what => "Malformed unit at `" ++ locationText location ++ "`: " ++ what.reason

/-- The result of reading a part of a document, with what was reported, also before a failure. -/
structure Loaded (α : Type) where
  events : List Event := []
  result : Except LoadError α

namespace Loaded

variable {α β : Type}

def ok (value : α) : Loaded α := ⟨[], .ok value⟩

def fail (failure : LoadError) : Loaded α := ⟨[], .error failure⟩

/-- Reports an event before going on. -/
def report (event : Event) (next : Loaded α) : Loaded α :=
  ⟨event :: next.events, next.result⟩

/-- Goes on with a result, unless reading has failed; the reports follow one another. -/
def bind (first : Loaded α) (next : α → Loaded β) : Loaded β :=
  match first.result with
  | .error failure => ⟨first.events, .error failure⟩
  | .ok value => let second := next value; ⟨first.events ++ second.events, second.result⟩

def map (f : α → β) (loaded : Loaded α) : Loaded β :=
  ⟨loaded.events, loaded.result.map f⟩

end Loaded

end ShellUnits
