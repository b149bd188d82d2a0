import ShellUnits.Yaml.Scalar

/-!
Writing values as YAML documents in block style.

Every line is indented by two columns more than the collection around it, except that a sequence below a
simple key begins in the column of the key. A collection that is not empty starts on the line of the
indicator before it, if nothing but indicators and indentation stands there. Lines are never folded.

A tag directly below a tag has no written form. Nor has a mapping of a single entry whose key is tagged or
is itself a mapping of a single entry, unless the outer mapping is tagged: the writer takes a single entry
for a tag until it has seen the key.

Main definitions: `Yaml.WriteError`, `Yaml.write`.
-/

namespace ShellUnits.Yaml

/-- Why a value has no written form. -/
inductive WriteError where
  /-- A tagged value directly below a tag. -/
  | nestedTags
  /-- A single entry whose key hides the start of its mapping. -/
  | hiddenMapping
deriving DecidableEq, Repr

def WriteError.message : WriteError → String
  | .nestedTags => "serializing nested enums in YAML is not supported yet"
  | .hiddenMapping => "expected SCALAR, SEQUENCE-START, MAPPING-START, or ALIAS"

/-!
### Places

Where a value stands decides how its further lines are indented and whether a collection can start on the
same line.
-/

/-- Where a value is written. The column is that of the collection around it. -/
inductive Site where
  /-- The whole document. -/
  | root
  /-- After the dash of a sequence. -/
  | item (column : Nat)
  /-- After a simple key and its colon. -/
  | simpleValue (column : Nat)
  /-- After a question mark, or after the colon that answers it. -/
  | explicitPart (column : Nat)

namespace Site

/-- What separates a value from the indicator before it. -/
def lead : Site → String
  | .root => ""
  | _ => " "

/-- The indentation of a scalar's further lines. -/
def scalarIndent : Site → Nat
  | .root => 2
  | .item column => column + 2
  | .simpleValue column => column + 2
  | .explicitPart column => column + 2

/-- The column of a mapping's keys. -/
def mappingColumn : Site → Nat
  | .root => 0
  | .item column => column + 2
  | .simpleValue column => column + 2
  | .explicitPart column => column + 2

/-- The column of a sequence's dashes. -/
def sequenceColumn (tagged : Bool) : Site → Nat
  | .root => 0
  | .item column => column + 2
  | .simpleValue column => column
  | .explicitPart column => if tagged then column else column + 2

end Site

/-!
### Tags
-/

/-- The tag as it is named in a document: the special tag `!` stands for itself. -/
def documentTag (name : String) : String :=
  if name.toList.head? = some '!' then name else "!" ++ name

/-- Whether the character of a tag is written as it is. -/
def isPlainTagChar (c : Char) : Bool :=
  isWordChar c || ";/?:@&=+$,.~*'()[]!".toList.contains c

/-- The bytes of a character that has to be written as escapes. -/
def percentEscape (c : Char) : List Char :=
  (String.singleton c).toByteArray.data.toList.flatMap fun byte => '%' :: Text.upperHexDigits 2 byte.toNat

/-- The written form of a tag. A tag that is no longer than its handle is put between angle brackets. -/
def tagText (name : String) : String :=
  let escape (text : List Char) : String :=
    String.ofList (text.flatMap fun c => if isPlainTagChar c then [c] else percentEscape c)
  match (documentTag name).toList with
  | '!' :: c :: rest => "!" ++ escape (c :: rest)
  | text => "!<" ++ escape text ++ ">"

/-- The tag with the space after it, or nothing. -/
def tagLead : Option String → String
  | none => ""
  | some name => tagText name ++ " "

/-- How many bytes a tag counts for in the length of a key. -/
def tagLength : Option String → Nat
  | none => 0
  | some name => (documentTag name).utf8ByteSize

/-!
### Values
-/

/-- The longest simple key in bytes. -/
def simpleKeyLimit : Nat := 128

/-- The text of a key that can stand before its colon on one line. -/
def simpleKey? (tag : Option String) : Value → Option String
  | .null => bounded "null"
  | .bool value => bounded (if value then "true" else "false")
  | .number value => bounded value.text
  | .string text =>
    if text.toList.any isBreak then none
    else if tagLength tag + text.utf8ByteSize ≤ simpleKeyLimit then
      some (tagLead tag ++ String.ofList ((scalarText 0 text.toList).dropLast))
    else none
  | .sequence .nil => bracketed "[]"
  | .mapping .nil => bracketed "\x7b\x7d"
  | .sequence _ => none
  | .mapping _ => none
  | .tagged name value => if tag.isSome then none else simpleKey? (some name) value
where
  bounded (text : String) : Option String :=
    if tagLength tag + text.utf8ByteSize ≤ simpleKeyLimit then some (tagLead tag ++ text) else none
  bracketed (text : String) : Option String :=
    if tagLength tag ≤ simpleKeyLimit then some (tagLead tag ++ text) else none

/-- Whether the entries are a single one whose key hides the start of the mapping. -/
def hidesStart : Entries → Bool
  | .cons (.tagged _ _) _ .nil => true
  | .cons (.mapping (.cons _ _ .nil)) _ .nil => true
  | _ => false

def spaces (n : Nat) : String := String.ofList (List.replicate n ' ')

/-- What stands between the indicator and the first row of a collection that is not empty. -/
def opening (site : Site) (tag : Option String) (column : Nat) : String :=
  match tag, site with
  | some name, _ => site.lead ++ tagText name ++ "\n" ++ spaces column
  | none, .simpleValue _ => "\n" ++ spaces column
  | none, _ => site.lead

/-- The rows of a collection, from its first row on. -/
def joinRows (column : Nat) (rows : List String) : String :=
  (spaces column).intercalate rows

mutual

/-- The text of a value after its indicator, with its last line ended. -/
def writeValue (site : Site) (tag : Option String) : Value → Except WriteError String
  | .null => .ok (site.lead ++ tagLead tag ++ "null\n")
  | .bool value => .ok (site.lead ++ tagLead tag ++ (if value then "true\n" else "false\n"))
  | .number value => .ok (site.lead ++ tagLead tag ++ value.text ++ "\n")
  | .string text =>
    .ok (site.lead ++ tagLead tag ++ String.ofList (scalarText site.scalarIndent text.toList))
  | .sequence items => do
    let column := site.sequenceColumn tag.isSome
    match ← writeItems column items with
    | [] => return site.lead ++ tagLead tag ++ "[]\n"
    | rows => return opening site tag column ++ joinRows column rows
  | .mapping entries => do
    let column := site.mappingColumn
    let rows ← writeEntries column entries
    if tag.isNone && hidesStart entries then throw .hiddenMapping
    match rows with
    | [] => return site.lead ++ tagLead tag ++ "\x7b\x7d\n"
    | rows => return opening site tag column ++ joinRows column rows
  | .tagged name value => if tag.isSome then .error .nestedTags else writeValue site (some name) value

/-- The items of a sequence in the given column, each a row without its indentation. -/
def writeItems (column : Nat) : Items → Except WriteError (List String)
  | .nil => .ok []
  | .cons item rest => do
    let text ← writeValue (.item column) none item
    return ("-" ++ text) :: (← writeItems column rest)

/-- The entries of a mapping in the given column, each a row without its indentation. -/
def writeEntries (column : Nat) : Entries → Except WriteError (List String)
  | .nil => .ok []
  | .cons key value rest => do
    let row ← match simpleKey? none key with
      | some text => do
        let answer ← writeValue (.simpleValue column) none value
        pure (text ++ ":" ++ answer)
      | none => do
        let question ← writeValue (.explicitPart column) none key
        let answer ← writeValue (.explicitPart column) none value
        pure ("?" ++ question ++ spaces column ++ ":" ++ answer)
    return row :: (← writeEntries column rest)

end

/-- The document that holds this value. -/
def write (value : Value) : Except WriteError String :=
  writeValue .root none value

end ShellUnits.Yaml
