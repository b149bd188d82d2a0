import ShellUnits.Yaml.Token

/-!
The tree that the tokens of a document form.

A tree holds the text of scalars as it was read; what a scalar denotes is decided later. Anchored trees are
kept in a table. An anchor name is given the number of names known before it, and an alias remembers the
number that its name has at that moment; two anchors may come to share a number, and then the one that
begins last in the document has it.

Main definitions: `Tree`, `Anchored`, `ParsedDocument`, `parseDocument?`.
-/

namespace ShellUnits.Yaml

/-- A part of a document. Tags are fully expanded. -/
inductive Tree where
  | alias (number : Nat)
  | scalar (tag : Option String) (text : List Char) (plain : Bool)
  | sequence (tag : Option String) (items : List Tree)
  | mapping (tag : Option String) (entries : List (Tree × Tree))

instance : Inhabited Tree := ⟨.scalar none [] true⟩

/-- A tree that aliases can stand for. -/
structure Anchored where
  number : Nat
  /-- How many anchors begin before this one. -/
  place : Nat
  tree : Tree

/-- What has been parsed so far. -/
structure ParseState where
  tokens : List Token
  /-- The numbers of the anchor names. -/
  names : List (String × Nat) := []
  /-- How many anchors have begun. -/
  anchors : Nat := 0
  anchored : List Anchored := []
  /-- How many starts and ends of collections, scalars and aliases there are. -/
  size : Nat := 0

abbrev Parser := StateT ParseState Option

/-- What handles of tags stand for. -/
abbrev Handles := List (String × String)

namespace Parser

/-- The next token. -/
def peek : Parser (Option Token) := do return (← get).tokens.head?

/-- Goes past the next token. -/
def drop : Parser Unit := modify fun s => { s with tokens := s.tokens.drop 1 }

def count (parts : Nat) : Parser Unit := modify fun s => { s with size := s.size + parts }

/-- A scalar of which only the tag is there, if that. -/
def absentScalar (tag : Option String) : Parser Tree := do
  count 1
  return .scalar tag [] true

/-- A scalar that is not there and has no tag. -/
def emptyScalar : Parser Tree := absentScalar none

/-- Gives an anchor name its number. -/
def beginAnchor (name : String) : Parser (Nat × Nat) := do
  let s ← get
  let number := s.names.length
  let names := (name, number) :: s.names.filter fun entry => entry.1 != name
  set { s with names, anchors := s.anchors + 1 }
  return (number, s.anchors)

/-- Parses a tree that may have an anchor. -/
def anchoredTree (anchor : Option String) (parse : Parser Tree) : Parser Tree := do
  match anchor with
  | none => parse
  | some name =>
    let (number, place) ← beginAnchor name
    let tree ← parse
    modify fun s => { s with anchored := ⟨number, place, tree⟩ :: s.anchored }
    return tree

/-- The anchor and the tag in front of a tree, in either order. -/
def properties : Parser (Option String × Option (String × String)) := do
  match ← peek with
  | some (.anchor name) =>
    drop
    match ← peek with
    | some (.tag handle suffix) => drop; return (some name, some (handle, suffix))
    | _ => return (some name, none)
  | some (.tag handle suffix) =>
    drop
    match ← peek with
    | some (.anchor name) => drop; return (some name, some (handle, suffix))
    | _ => return (none, some (handle, suffix))
  | _ => return (none, none)

/-- The full text of a tag; its handle must be known. -/
def expandTag (handles : Handles) : Option (String × String) → Parser (Option String)
  | none => return none
  | some (handle, suffix) =>
    if handle = "" then return some suffix
    else match handles.lookup handle with
      | some expansion => return some (expansion ++ suffix)
      | none => failure

/-- Whether there is a next token and `p` accepts it. -/
def nextIs (p : Token → Bool) : Parser Bool := do return (← peek).any p

/-- Goes past the token that must come next. -/
def expect (token : Token) : Parser Unit := do
  if (← peek) = some token then drop else failure

def endsBlockEntry : Token → Bool
  | .blockEntry | .blockEnd => true
  | _ => false

def endsIndentlessEntry : Token → Bool
  | .blockEntry | .key | .value | .blockEnd => true
  | _ => false

def endsBlockPart : Token → Bool
  | .key | .value | .blockEnd => true
  | _ => false

def endsFlowItem : Token → Bool
  | .value | .flowEntry | .flowSequenceEnd => true
  | _ => false

def endsFlowMember : Token → Bool
  | .value | .flowEntry | .flowMappingEnd => true
  | _ => false

/-!
The parsers below take the number of steps that they may nest as their first argument; a document never
needs more than a few for each of its tokens.
-/

mutual

/-- A tree. Only in block context can it be a collection in block style, and only as a part of a block
    mapping a sequence without indentation of its own. -/
def tree (handles : Handles) (block indentless : Bool) : Nat → Parser Tree
  | 0 => failure
  | fuel + 1 => do
    match ← peek with
    | some (.alias name) =>
      drop
      count 1
      match (← get).names.lookup name with
      | some number => return .alias number
      | none => failure
    | _ =>
      let (anchor, shortTag) ← properties
      let tag ← expandTag handles shortTag
      anchoredTree anchor do
        match ← peek with
        | some (.scalar text plain) =>
          drop
          count 1
          return .scalar (if tag = some "!" then none else tag) text plain
        | some .flowSequenceStart =>
          drop
          count 2
          return .sequence tag (← flowItems handles true fuel)
        | some .flowMappingStart =>
          drop
          count 2
          return .mapping tag (← flowMembers handles true fuel)
        | some .blockEntry =>
          if indentless then do
            count 2
            return .sequence tag (← indentlessItems handles fuel)
          else if anchor.isSome || tag.isSome then absentScalar tag else failure
        | some .blockSequenceStart =>
          if block then do
            drop
            count 2
            return .sequence tag (← blockItems handles fuel)
          else if anchor.isSome || tag.isSome then absentScalar tag else failure
        | some .blockMappingStart =>
          if block then do
            drop
            count 2
            return .mapping tag (← blockEntries handles fuel)
          else if anchor.isSome || tag.isSome then absentScalar tag else failure
        | _ => if anchor.isSome || tag.isSome then absentScalar tag else failure

/-- The items of a block sequence, with its end. -/
def blockItems (handles : Handles) : Nat → Parser (List Tree)
  | 0 => failure
  | fuel + 1 => do
    match ← peek with
    | some .blockEntry =>
      drop
      let item ←
        if ← nextIs endsBlockEntry then emptyScalar else tree handles true false fuel
      return item :: (← blockItems handles fuel)
    | some .blockEnd => drop; return []
    | _ => failure

/-- The items of a sequence in the column of its key. -/
def indentlessItems (handles : Handles) : Nat → Parser (List Tree)
  | 0 => failure
  | fuel + 1 => do
    match ← peek with
    | some .blockEntry =>
      drop
      let item ←
        if ← nextIs endsIndentlessEntry then emptyScalar else tree handles true false fuel
      return item :: (← indentlessItems handles fuel)
    | _ => return []

/-- The entries of a block mapping, with its end. -/
def blockEntries (handles : Handles) : Nat → Parser (List (Tree × Tree))
  | 0 => failure
  | fuel + 1 => do
    match ← peek with
    | some .key =>
      drop
      let key ← if ← nextIs endsBlockPart then emptyScalar else tree handles true true fuel
      let value ← blockValue handles fuel
      return (key, value) :: (← blockEntries handles fuel)
    | some .blockEnd => drop; return []
    | _ => failure

/-- The value of an entry in a block mapping. -/
def blockValue (handles : Handles) : Nat → Parser Tree
  | 0 => failure
  | fuel + 1 => do
    match ← peek with
    | some .value =>
      drop
      if ← nextIs endsBlockPart then emptyScalar else tree handles true true fuel
    | _ => emptyScalar

/-- The items of a flow sequence, with its end. An item that is a key forms a mapping of its own. -/
def flowItems (handles : Handles) (first : Bool) : Nat → Parser (List Tree)
  | 0 => failure
  | fuel + 1 => do
    if (← peek) = some .flowSequenceEnd then
      drop
      return []
    if !first then expect .flowEntry
    match ← peek with
    | some .flowSequenceEnd => drop; return []
    | some .key =>
      drop
      count 2
      let key ←
        if ← nextIs endsFlowItem then do
          drop
          emptyScalar
        else tree handles false false fuel
      let value ← flowValue handles endsFlowItem fuel
      return .mapping none [(key, value)] :: (← flowItems handles false fuel)
    | _ =>
      let item ← tree handles false false fuel
      return item :: (← flowItems handles false fuel)

/-- The members of a flow mapping, with its end. -/
def flowMembers (handles : Handles) (first : Bool) : Nat → Parser (List (Tree × Tree))
  | 0 => failure
  | fuel + 1 => do
    if (← peek) = some .flowMappingEnd then
      drop
      return []
    if !first then expect .flowEntry
    match ← peek with
    | some .flowMappingEnd => drop; return []
    | some .key =>
      drop
      let key ← if ← nextIs endsFlowMember then emptyScalar else tree handles false false fuel
      let value ← flowValue handles endsFlowMember fuel
      return (key, value) :: (← flowMembers handles false fuel)
    | _ =>
      let key ← tree handles false false fuel
      let value ← emptyScalar
      return (key, value) :: (← flowMembers handles false fuel)

/-- The value of an entry in a flow collection; `ends` tells what can follow an entry. -/
def flowValue (handles : Handles) (ends : Token → Bool) : Nat → Parser Tree
  | 0 => failure
  | fuel + 1 => do
    match ← peek with
    | some .value =>
      drop
      if ← nextIs fun token => token != .value && ends token then emptyScalar
      else tree handles false false fuel
    | _ => emptyScalar

end

/-!
### Documents
-/

def isDirective : Token → Bool
  | .version _ _ | .handle _ _ => true
  | _ => false

/-- The handles that every document knows. -/
def standardHandles : Handles := [("!", "!"), ("!!", "tag:yaml.org,2002:")]

/-- Reads the directives in front of a document: at most one version, which must be 1.1 or 1.2, and no
    handle twice. -/
def directives (versionSeen : Bool) (handles : Handles) : List Token → Option (Handles × List Token)
  | .version major minor :: rest =>
    if versionSeen || major ≠ 1 || (minor ≠ 1 && minor ≠ 2) then none
    else directives true handles rest
  | .handle handle expansion :: rest =>
    if (handles.lookup handle).isSome then none
    else directives versionSeen ((handle, expansion) :: handles) rest
  | rest => some (handles, rest)

end Parser

/-- A whole document. -/
structure ParsedDocument where
  root : Tree
  anchored : List Anchored
  size : Nat

/-- Parses the tokens of a stream that must hold at most one document. An empty stream holds a null. -/
def parseDocument? (tokens : List Token) : Option ParsedDocument := do
  let fuel := 3 * tokens.length + 3
  match tokens with
  | [] => return ⟨.scalar none [] true, [], 1⟩
  | first :: _ =>
    let explicit := Parser.isDirective first || first == .documentStart
    let (handles, rest) ← if explicit then Parser.directives false [] tokens else some ([], tokens)
    let handles := handles ++ Parser.standardHandles
    let rest ←
      if explicit then
        match rest with
        | .documentStart :: rest => some rest
        | _ => none
      else some rest
    let content : Parser Tree := do
      let absent := match rest.head? with
        | none => true
        | some token => Parser.isDirective token || token == .documentStart || token == .documentEnd
      if explicit && absent then Parser.emptyScalar else Parser.tree handles true false fuel
    let (root, final) ← content.run { tokens := rest }
    if final.tokens.all (· == .documentEnd) then return ⟨root, final.anchored, final.size⟩ else none

end ShellUnits.Yaml
