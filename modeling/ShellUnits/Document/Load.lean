import ShellUnits.Document.Basic
import ShellUnits.Document.LoadError

/-!
Reading a value as a document.

The top level holds `units` and maybe `options`; other keys are reported and left out. Below `units` every
mapping is a group. Keys with the reserved marker are attributes of the group; the derived ones and unknown
ones are reported and left out, the others must be strings. A child is a group, a placeholder (null), a
reference (a string in the reference syntax) or a command (any other string, a number, a truth value).
Entries are read in order, and the first one that fits nothing ends the reading.

Main definition: `Document.ofValue`.
-/

namespace ShellUnits

/-- A key as text. -/
def stringKey (location : List String) : Value → Loaded String
  | .string key => .ok key
  | key => .fail (.malformed location (.keyNotString key))

/-- The text of an attribute. -/
def attributeText (location : List String) (key : String) : Value → Loaded String
  | .string text => .ok text
  | _ => .fail (.malformed location (.attributeNotString key))

/-- What a group is read into: its own directory and command, and its children. -/
abbrev Group.withDirectory (text : String) (group : Group) : Group :=
  { group with attributes := { group.attributes with directory := some text } }

abbrev Group.withCommand (text : String) (group : Group) : Group :=
  { group with attributes := { group.attributes with command := some text } }

abbrev Group.withFirstChild (key : String) (node : Node) (group : Group) : Group :=
  { group with children := .cons key node group.children }

/-- Reads the attribute `key` of a group whose other entries are read by `rest`. -/
def loadAttribute (location : List String) (key : String) (value : Value) (rest : Loaded Group) :
    Loaded Group :=
  if key = workingDirectoryKey then
    (attributeText location key value).bind fun text => rest.map (Group.withDirectory text)
  else if key = commandKey then
    (attributeText location key value).bind fun text => rest.map (Group.withCommand text)
  else if key = qualifiedNameKey ∨ key = effectiveWorkingDirectoryKey then
    rest.report (.derivedAttribute location key)
  else rest.report (.unknownAttribute location key)

/-- The unit that a string stands for. -/
def Node.ofText (text : String) : Node :=
  match parseReference? text with
  | some ids => .reference ids
  | none => .command text

mutual

/-- Reads the value of a child at this location. -/
def loadNode (location : List String) : Value → Loaded Node
  | .null => .ok .placeholder
  | .string text => .ok (.ofText text)
  | .number number => .ok (.command number.text)
  | .bool value => .ok (.command (if value then "true" else "false"))
  | .mapping entries => (loadEntries location entries).map Group.toNode
  | .sequence _ => .fail (.malformed location .sequence)
  | .tagged tag _ => .fail (.malformed location (.tag tag))

/-- Reads the entries of the group at this location. -/
def loadEntries (location : List String) : Entries → Loaded Group
  | .nil => .ok {}
  | .cons key value rest =>
    (stringKey location key).bind fun key =>
      if isReservedKey key then loadAttribute location key value (loadEntries location rest)
      else (loadNode (location ++ [key]) value).bind fun node =>
        (loadEntries location rest).map (Group.withFirstChild key node)

end

/-- Reads the root units. -/
def loadUnits : Value → Loaded Group
  | .null => .ok {}
  | .mapping entries => loadEntries [] entries
  | _ => .fail (.malformed [] .unitsNotMapping)

/-- Reads the entries of the options. -/
def loadOptionEntries : Entries → Loaded Options
  | .nil => .ok []
  | .cons key value rest =>
    (stringKey ["options"] key).bind fun key =>
      (loadOptionEntries rest).map fun options => (key, value) :: options

/-- Reads the options. -/
def loadOptions : Value → Loaded Options
  | .null => .ok []
  | .mapping entries => loadOptionEntries entries
  | _ => .fail (.malformed [] .optionsNotMapping)

/-- The two parts of a document, as far as they have been found. -/
structure Parts where
  options : Option Options := none
  units : Option Group := none

/-- Reads the top-level entries. -/
def loadTopLevel (parts : Parts) : Entries → Loaded Parts
  | .nil => .ok parts
  | .cons key value rest =>
    (stringKey [] key).bind fun key =>
      if key = "units" then
        (loadUnits value).bind fun units => loadTopLevel { parts with units := some units } rest
      else if key = "options" then
        (loadOptions value).bind fun options => loadTopLevel { parts with options := some options } rest
      else (loadTopLevel parts rest).report (.unknownTopLevelKey key)

/-- Puts the parts together; the units must be there. -/
def Parts.toDocument (parts : Parts) : Loaded Document :=
  match parts.units with
  | none => .fail .missingUnits
  | some units =>
    let document : Document := ⟨parts.options.getD [], units⟩
    if units.attributes.command.isSome then Loaded.report .rootCommand (.ok document) else .ok document

/-- Reads a value as a document. -/
def Document.ofValue : Value → Loaded Document
  | .mapping entries => (loadTopLevel {} entries).bind Parts.toDocument
  | _ => .fail .missingUnits

end ShellUnits
