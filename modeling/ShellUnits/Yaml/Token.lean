import ShellUnits.Yaml.ScalarReader

/-!
Cutting a document into tokens.

Indentation becomes tokens of its own: a collection in block style begins with a start token and ends with
`blockEnd` as soon as a line is indented less. A key that has no indicator of its own is recognized only at
its colon; until then the place before it is remembered, and the `key` token (with the start of a mapping,
if the key begins one) is put in there. Such a key must lie on one line and its colon within 1024
characters.

Main definitions: `Token`, `tokens?`.
-/

namespace ShellUnits.Yaml

inductive Token where
  | version (major minor : Nat)
  | handle (handle expansion : String)
  | documentStart
  | documentEnd
  | blockSequenceStart
  | blockMappingStart
  | blockEnd
  | flowSequenceStart
  | flowSequenceEnd
  | flowMappingStart
  | flowMappingEnd
  | blockEntry
  | flowEntry
  | key
  | value
  | alias (name : String)
  | anchor (name : String)
  | tag (handle suffix : String)
  | scalar (text : List Char) (plain : Bool)
deriving DecidableEq, Repr

/-!
### Anchors, tags and directives
-/

/-- Reads the name of an anchor or an alias behind its indicator. -/
def readAnchorName? (source : Source) : Option (String × Source) :=
  let source := source.skip 1
  let name := source.run isWordChar
  let behind := source.skip name.length
  let ended := match behind.rest with
    | [] => true
    | c :: _ => isBlank c || isBreak c || "?:,]\x7d%@`".toList.contains c
  if name ≠ [] && ended then some (String.ofList name, behind) else none

/-- The number of bytes of the character that begins with this byte. -/
def utf8Width? (byte : Nat) : Option Nat :=
  if byte < 0x80 then some 1
  else if 0xC0 ≤ byte && byte < 0xE0 then some 2
  else if 0xE0 ≤ byte && byte < 0xF0 then some 3
  else if 0xF0 ≤ byte && byte < 0xF8 then some 4
  else none

/-- Reads bytes that are each written as a percent sign and two hexadecimal digits. -/
def readPercentBytes? : Nat → List Char → Option (List UInt8 × List Char)
  | 0, text => some ([], text)
  | count + 1, '%' :: high :: low :: rest => do
    let byte ← natOfDigits? 16 [high, low]
    let (bytes, rest) ← readPercentBytes? count rest
    return (byte.toUInt8 :: bytes, rest)
  | _ + 1, _ => none

/-- Reads one character from its escaped bytes. -/
def readPercentChar? (text : List Char) : Option (List Char × List Char) := do
  let (first, _) ← readPercentBytes? 1 text
  let width ← first.head?.bind fun byte => utf8Width? byte.toNat
  let (bytes, rest) ← readPercentBytes? width text
  let decoded ← String.fromUTF8? ⟨bytes.toArray⟩
  return (decoded.toList, rest)

/-- Reads the characters of a tag and resolves their escapes; the number tells how many were read. -/
def readTagChars? (bracketed : Bool) : Nat → List Char → Option (List Char × Nat)
  | 0, _ => some ([], 0)
  | _ + 1, [] => some ([], 0)
  | fuel + 1, c :: rest =>
    if c == '%' then do
      let (decoded, behind) ← readPercentChar? (c :: rest)
      let (more, read) ← readTagChars? bracketed fuel behind
      return (decoded ++ more, read + 3 * decoded.foldl (fun bytes d => bytes + d.utf8Size) 0)
    else if isTagChar c || (bracketed && ",[]".toList.contains c) then do
      let (more, read) ← readTagChars? bracketed fuel rest
      return (c :: more, read + 1)
    else some ([], 0)

/-- Reads part of a tag. -/
def readTagText? (bracketed : Bool) (source : Source) : Option (List Char × Source) := do
  let (text, read) ← readTagChars? bracketed source.fuel source.rest
  return (text, source.skip read)

/-- The text at the front that looks like a handle: an exclamation mark, a word and maybe another
    exclamation mark. -/
def handleText : List Char → List Char
  | '!' :: rest =>
    let word := rest.takeWhile isWordChar
    '!' :: word ++ (if (rest.drop word.length).head? = some '!' then ['!'] else [])
  | _ => []

/-- Whether the text is a handle with two exclamation marks. -/
def isNamedHandle (text : List Char) : Bool :=
  2 ≤ text.length && text.getLast? == some '!'

/-- Reads a tag: `!<…>`, a named handle with a suffix, or the primary handle with a suffix. The tag that is
    only an exclamation mark has no handle. -/
def readTag? (inFlow : Bool) (source : Source) : Option (Token × Source) := do
  let (token, source) ←
    if source.startsWith "!<" then do
      let (text, source) ← readTagText? true (source.skip 2)
      if text = [] || !source.next (· == '>') then none
      pure (Token.tag "" (String.ofList text), source.skip 1)
    else do
      let handle := handleText source.rest
      let behind := source.skip handle.length
      if isNamedHandle handle then
        let (text, source) ← readTagText? false behind
        if text = [] then none
        pure (Token.tag (String.ofList handle) (String.ofList text), source)
      else
        let (text, source) ← readTagText? false behind
        let suffix := handle.drop 1 ++ text
        pure (if suffix = [] then Token.tag "" "!" else Token.tag "!" (String.ofList suffix), source)
  if atGap source.rest || (inFlow && source.next (· == ',')) then return (token, source) else none

/-- Reads a number of at most nine digits. -/
def readVersionPart? (source : Source) : Option (Nat × Source) :=
  let digits := source.run Char.isDigit
  if digits.length ≤ 9 then
    (natOfDigits? 10 digits).map fun n => (n, source.skip digits.length)
  else none

/-- Reads the version behind `%YAML`. -/
def readVersion? (source : Source) : Option (Token × Source) := do
  let (major, source) ← readVersionPart? (source.dropRun isBlank)
  if !source.next (· == '.') then none
  let (minor, source) ← readVersionPart? (source.skip 1)
  return (.version major minor, source)

/-- Reads the handle and its expansion behind `%TAG`. -/
def readHandle? (source : Source) : Option (Token × Source) := do
  let source := source.dropRun isBlank
  let handle := handleText source.rest
  if handle = [] || !(handle.length = 1 || isNamedHandle handle) then none
  let source := source.skip handle.length
  if !source.next isBlank then none
  let (expansion, source) ← readTagText? true (source.dropRun isBlank)
  if expansion = [] || !atGap source.rest then none
  return (.handle (String.ofList handle) (String.ofList expansion), source)

/-- Reads a directive up to the end of its line. -/
def readDirective? (source : Source) : Option (Token × Source) := do
  let source := source.skip 1
  let name := source.run isWordChar
  let source := source.skip name.length
  if !atGap source.rest then none
  let (token, source) ←
    if name == "YAML".toList then readVersion? source
    else if name == "TAG".toList then readHandle? source
    else none
  return (token, ← source.finishLine?)

/-!
### The state between tokens
-/

/-- A place where a key without an indicator may have begun. -/
structure PossibleKey where
  /-- How many tokens stand before the key. -/
  position : Nat
  /-- Whether nothing but a key can stand here. -/
  required : Bool
  index : Nat
  line : Nat
  column : Nat

/-- The state between two tokens. -/
structure Scanner where
  source : Source
  tokens : Array Token := #[]
  /-- The columns of the open block collections, the innermost first. -/
  columns : List Nat := []
  /-- The possible key of each open flow collection, the innermost first, and of the block context. -/
  keys : List (Option PossibleKey) := [none]
  /-- Whether a key without an indicator may begin here. -/
  keyAllowed : Bool := true

namespace Scanner

def inFlow (s : Scanner) : Bool := 1 < s.keys.length

def push (token : Token) (s : Scanner) : Scanner :=
  { s with tokens := s.tokens.push token }

/-- Goes past an indicator of the given width. -/
def indicator (token : Token) (width : Nat) (s : Scanner) : Scanner :=
  { s.push token with source := s.source.skip width }

/-- Opens a block collection in this column, unless one is open there or further in. Its start token is put
    in front of the tokens from `position` on. -/
def openBlock (start : Token) (position column : Nat) (s : Scanner) : Scanner :=
  let deeper := match s.columns with
    | [] => true
    | innermost :: _ => innermost < column
  if !s.inFlow && deeper then
    { s with columns := column :: s.columns, tokens := s.tokens.insertIdxIfInBounds position start }
  else s

/-- Closes the block collections that lie further in than the column. -/
def closeBlocks (column : Nat) (s : Scanner) : Scanner :=
  if s.inFlow then s
  else
    let closed := s.columns.takeWhile (column < ·)
    { s with
      columns := s.columns.drop closed.length
      tokens := closed.foldl (fun tokens _ => tokens.push .blockEnd) s.tokens }

/-- Closes all block collections. -/
def closeAllBlocks (s : Scanner) : Scanner :=
  if s.inFlow then s
  else
    { s with
      columns := []
      tokens := s.columns.foldl (fun tokens _ => tokens.push .blockEnd) s.tokens }

/-- Gives up a possible key; `none` if it was required. -/
def dropKey? (s : Scanner) : Option Scanner :=
  match s.keys with
  | some key :: outer => if key.required then none else some { s with keys := none :: outer }
  | _ => some s

/-- Remembers that a key may begin here, if it may. -/
def saveKey? (s : Scanner) : Option Scanner :=
  if s.keyAllowed then
    let required := !s.inFlow && s.columns.head? == some s.source.column
    s.dropKey?.map fun s =>
      { s with
        keys := some ⟨s.tokens.size, required, s.source.index, s.source.line, s.source.column⟩
          :: s.keys.drop 1 }
  else some s

/-- Gives up the possible keys that are too far back; `none` if one of them was required. -/
def dropStaleKeys? (s : Scanner) : Option Scanner := do
  let keys ← s.keys.mapM fun key? =>
    match key? with
    | some key =>
      if key.line < s.source.line || key.index + 1024 < s.source.index then
        if key.required then none else some none
      else some (some key)
    | none => some none
  return { s with keys }

/-- Goes past blanks, comments and line ends. Tabs count as blanks where no key can begin. -/
def toNextToken : Nat → Scanner → Scanner
  | 0, s => s
  | fuel + 1, s =>
    let source := if s.source.index == 0 && s.source.next (· == '\ufeff') then s.source.skip 1 else s.source
    let source := source.dropRun fun c => c == ' ' || ((s.inFlow || !s.keyAllowed) && c == '\t')
    let source := if source.next (· == '#') then source.dropRun fun _ => true else source
    if source.next isBreak then
      toNextToken fuel
        { s with source := source.advance, keyAllowed := s.keyAllowed || !s.inFlow }
    else { s with source }

/-!
### One token
-/

/-- Opens a flow collection. -/
def openFlow? (token : Token) (s : Scanner) : Option Scanner := do
  let s ← s.saveKey?
  return { s with keys := none :: s.keys, keyAllowed := true }.indicator token 1

/-- Closes a flow collection. -/
def closeFlow? (token : Token) (s : Scanner) : Option Scanner := do
  let s ← s.dropKey?
  let keys := match s.keys with
    | _ :: outer :: more => outer :: more
    | keys => keys
  return { s with keys, keyAllowed := false }.indicator token 1

def flowEntry? (s : Scanner) : Option Scanner := do
  let s ← s.dropKey?
  return { s with keyAllowed := true }.indicator .flowEntry 1

def blockEntry? (s : Scanner) : Option Scanner := do
  if !s.inFlow && !s.keyAllowed then none
  let s ← (s.openBlock .blockSequenceStart s.tokens.size s.source.column).dropKey?
  return { s with keyAllowed := true }.indicator .blockEntry 1

def key? (s : Scanner) : Option Scanner := do
  if !s.inFlow && !s.keyAllowed then none
  let s ← (s.openBlock .blockMappingStart s.tokens.size s.source.column).dropKey?
  return { s with keyAllowed := !s.inFlow }.indicator .key 1

def value? (s : Scanner) : Option Scanner :=
  match s.keys with
  | some key :: outer =>
    let s := { s with
      tokens := s.tokens.insertIdxIfInBounds key.position .key
      keys := none :: outer
      keyAllowed := false }
    some ((s.openBlock .blockMappingStart key.position key.column).indicator .value 1)
  | _ =>
    if !s.inFlow && !s.keyAllowed then none
    else
      let s := s.openBlock .blockMappingStart s.tokens.size s.source.column
      some ({ s with keyAllowed := !s.inFlow }.indicator .value 1)

/-- Adds a token that can begin a key. -/
def content? (read : Source → Option (Token × Source)) (s : Scanner) : Option Scanner := do
  let s ← s.saveKey?
  let (token, source) ← read s.source
  return { s.push token with source, keyAllowed := false }

def plain? (s : Scanner) : Option Scanner := do
  let s ← s.saveKey?
  let indent := match s.columns with
    | [] => 0
    | column :: _ => column + 1
  let (text, newLine, source) ← readPlain? s.inFlow indent s.source
  return { s.push (.scalar text true) with source, keyAllowed := newLine }

def blockScalar? (literal : Bool) (s : Scanner) : Option Scanner := do
  let s ← s.dropKey?
  let (text, source) ← readBlock? literal s.columns.head? s.source
  return { s.push (.scalar text false) with source, keyAllowed := true }

/-- Adds a token that stands between documents. -/
def boundary? (read : Source → Option (Token × Source)) (s : Scanner) : Option Scanner := do
  let s ← s.closeAllBlocks.dropKey?
  let (token, source) ← read s.source
  return { s.push token with source, keyAllowed := false }

/-- Whether a plain scalar can begin with `c`, followed by `rest`. -/
def beginsPlain (inFlow : Bool) (c : Char) (rest : List Char) : Bool :=
  !(isBlank c || isBreak c || "-?:,[]{}#&*!|>'\"%@`".toList.contains c) ||
    (c == '-' && !rest.head?.any isBlank) ||
    (!inFlow && (c == '?' || c == ':') && !atGap rest)

/-- Adds the token that begins with `c`, followed by `rest`. -/
def token? (c : Char) (rest : List Char) (s : Scanner) : Option Scanner :=
  let gap := atGap rest
  if s.source.column == 0 && c == '%' then s.boundary? readDirective?
  else if s.source.atMarker then
    s.boundary? fun source =>
      some (if c == '-' then .documentStart else .documentEnd, source.skip 3)
  else if c == '[' then s.openFlow? .flowSequenceStart
  else if c == '{' then s.openFlow? .flowMappingStart
  else if c == ']' then s.closeFlow? .flowSequenceEnd
  else if c == '}' then s.closeFlow? .flowMappingEnd
  else if c == ',' then s.flowEntry?
  else if c == '-' && gap then s.blockEntry?
  else if c == '?' && (s.inFlow || gap) then s.key?
  else if c == ':' && (s.inFlow || gap) then s.value?
  else if c == '*' then
    s.content? fun source => (readAnchorName? source).map fun (name, source) => (.alias name, source)
  else if c == '&' then
    s.content? fun source => (readAnchorName? source).map fun (name, source) => (.anchor name, source)
  else if c == '!' then s.content? (readTag? s.inFlow)
  else if c == '|' && !s.inFlow then s.blockScalar? true
  else if c == '>' && !s.inFlow then s.blockScalar? false
  else if c == '\'' || c == '"' then
    s.content? fun source =>
      (readQuoted? (c == '\'') source).map fun (text, source) => (.scalar text false, source)
  else if beginsPlain s.inFlow c rest then s.plain?
  else none

/-- Adds all further tokens. -/
def scan? : Nat → Scanner → Option (Array Token)
  | 0, _ => none
  | fuel + 1, s => do
    let s ← (s.toNextToken s.source.fuel).dropStaleKeys?
    match s.source.rest with
    | [] => do
      let s ← s.closeAllBlocks.dropKey?
      return s.tokens
    | c :: rest => do
      let s ← (s.closeBlocks s.source.column).token? c rest
      scan? fuel s

end Scanner

/-- The tokens of a document, or of several documents. -/
def tokens? (text : List Char) : Option (List Token) :=
  if text.all isAllowed then
    let source := Source.ofText (normalizeBreaks text)
    (Scanner.scan? source.fuel { source }).map Array.toList
  else none

end ShellUnits.Yaml
