import ShellUnits.Document.Load
import ShellUnits.Json.Writer
import ShellUnits.Yaml.Reader

/-!
Documents as text: read from YAML, written as YAML or as JSON.

Main definitions: `Document.ofYaml`, `Document.ofBytes`, `DumpFormat`, `Document.dumpWith`, `Document.dump`.
-/

namespace ShellUnits

/-- Reads a document from YAML. -/
def Document.ofYaml (text : String) : Loaded Document :=
  match Yaml.read? text with
  | some value => Document.ofValue value
  | none => .fail .notYaml

/-- Reads a document from the bytes of a file. -/
def Document.ofBytes (bytes : ByteArray) : Loaded Document :=
  match String.fromUTF8? bytes with
  | some text => Document.ofYaml text
  | none => .fail (.unreadable .notText)

/-- The formats that a document can be written in. -/
inductive DumpFormat where
  | yaml
  | json
deriving DecidableEq, Repr, Inhabited

/-- Why a document cannot be written. -/
inductive DumpError where
  | yaml (failure : Yaml.WriteError)
  | json (failure : Json.WriteError)
deriving DecidableEq, Repr

def DumpError.message : DumpError → String
  | yaml failure => failure.message
  | json failure => failure.message

/-- A document after writing: the text that got out, and why it is not the whole text. -/
structure Dumped where
  text : String
  failure : Option DumpError := none
deriving DecidableEq, Repr

/-- Writes a document. JSON goes out as it is produced. YAML is held back in a buffer that goes out when it is
full; `spilled` says what has gone out of a value by the time it turns out to have no written form. -/
def Document.dumpWith (spilled : Value → String) (format : DumpFormat) (document : Document) : Dumped :=
  match format with
  | .yaml =>
    match Yaml.write document.toValue with
    | .ok text => ⟨text, none⟩
    | .error failure => ⟨spilled document.toValue, some (.yaml failure)⟩
  | .json =>
    let written := Json.write document.toValue
    ⟨written.text, written.failure.map .json⟩

/-- Writes a document with a buffer that is never full: of YAML nothing goes out unless all of it does. -/
def Document.dump (format : DumpFormat) (document : Document) : Dumped :=
  document.dumpWith (fun _ => "") format

end ShellUnits
