import ShellUnits.Options

/-!
Documents and the values that stand for them.

A document has options and the root group of its units. As a value it is a mapping of both; a group is a
mapping that holds its attributes under their reserved keys first and then its children. Attributes that
are missing have no entry.

Main definitions: `Document`, `Document.toValue`.
-/

namespace ShellUnits

/-- Options and units. -/
structure Document where
  options : Options := []
  units : Group := {}
deriving DecidableEq, Repr, Inhabited

/-- Puts an attribute in front of the entries of a group, if it is there. -/
def attributeEntry (key : String) (text : Option String) (rest : Entries) : Entries :=
  match text with
  | some text => .cons (.string key) (.string text) rest
  | none => rest

/-- The entries of a group, given those of its children. -/
def Attributes.toEntries (attributes : Attributes) (children : Entries) : Entries :=
  attributeEntry qualifiedNameKey attributes.qualifiedName <|
    attributeEntry workingDirectoryKey attributes.directory <|
      attributeEntry effectiveWorkingDirectoryKey attributes.workingDirectory <|
        attributeEntry commandKey attributes.command children

mutual

/-- The value that stands for a unit. -/
def Node.toValue : Node → Value
  | .group attributes children => .mapping (attributes.toEntries children.toEntries)
  | .command text => .string text
  | .placeholder => .null
  | .reference ids => .string (formatReference ids)

/-- The entries that stand for children. -/
def Children.toEntries : Children → Entries
  | .nil => .nil
  | .cons key node rest => .cons (.string key) node.toValue rest.toEntries

end

/-- The value that stands for a group. -/
def Group.toValue (group : Group) : Value :=
  .mapping (group.attributes.toEntries group.children.toEntries)

/-- The entries that stand for options. -/
def Options.toEntries : Options → Entries
  | [] => .nil
  | (key, value) :: rest => .cons (.string key) value (toEntries rest)

/-- The value that stands for a document. -/
def Document.toValue (document : Document) : Value :=
  .mapping (.cons (.string "options") (.mapping document.options.toEntries)
    (.cons (.string "units") document.units.toValue .nil))

end ShellUnits
