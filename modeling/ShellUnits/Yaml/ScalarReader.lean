import ShellUnits.Decimal.Reading
import ShellUnits.Yaml.Source

/-!
Reading the text of scalars.

Main definitions: `readPlain?`, `readQuoted?`, `readBlock?`.
-/

namespace ShellUnits.Yaml

/-!
### Plain scalars

A plain scalar ends before a colon with a gap behind it, before a number sign with a gap in front, in front
of a document marker, and, outside flow collections, where a line is not indented enough. In a flow
collection its indicators end the scalar as well.
-/

/-- The next words of a plain scalar up to a blank or its end; `none` for a colon that a flow indicator
    follows. -/
def plainWord? (inFlow : Bool) : List Char → Option (List Char)
  | [] => some []
  | c :: rest =>
    if isBlank c || isBreak c then some []
    else if inFlow && c == ':' && rest.head?.any (fun d => ",?[]{}".toList.contains d) then none
    else if c == ':' && atGap rest then some []
    else if inFlow && ",[]{}".toList.contains c then some []
    else (plainWord? inFlow rest).map (c :: ·)

/-- Goes on with a plain scalar behind `gap`; `text` is what has been read, the last character first. The
    answer tells also whether the scalar ended behind a line break. -/
def readPlainFrom? (inFlow : Bool) (indent : Nat) :
    Nat → List Char → Gap → Source → Option (List Char × Bool × Source)
  | 0, _, _, _ => none
  | fuel + 1, text, gap, source =>
    let word? := if source.atMarker || source.next (· == '#') then some [] else plainWord? inFlow source.rest
    match word? with
    | none => none
    | some [] => some (text.reverse, !gap.breaks.isEmpty, source)
    | some word =>
      let text := word.reverse ++ (gap.fold.reverse ++ text)
      let source := source.skip word.length
      match source.gap? indent with
      | none => none
      | some (gap, behind) =>
        if gap.blanks = [] && gap.breaks = [] then some (text.reverse, false, behind)
        else if !inFlow && behind.column < indent then some (text.reverse, !gap.breaks.isEmpty, behind)
        else readPlainFrom? inFlow indent fuel text gap behind

/-- Reads the plain scalar that begins here; its further lines are indented by at least `indent`. -/
def readPlain? (inFlow : Bool) (indent : Nat) (source : Source) : Option (List Char × Bool × Source) :=
  readPlainFrom? inFlow indent source.fuel [] {} source

/-!
### Quoted scalars
-/

/-- What follows the backslash of an escape. -/
inductive Escape where
  /-- One character that stands for another. -/
  | char (c : Char)
  /-- This many hexadecimal digits of a code point. -/
  | code (width : Nat)

/-- The escape that a character behind a backslash begins. -/
def escape? (c : Char) : Option Escape :=
  match c with
  | '0' => some (.char '\x00')
  | 'a' => some (.char '\x07')
  | 'b' => some (.char '\x08')
  | 't' => some (.char '\t')
  | '\t' => some (.char '\t')
  | 'n' => some (.char '\n')
  | 'v' => some (.char '\x0b')
  | 'f' => some (.char '\x0c')
  | 'r' => some (.char '\r')
  | 'e' => some (.char '\x1b')
  | ' ' => some (.char ' ')
  | '"' => some (.char '"')
  | '/' => some (.char '/')
  | '\\' => some (.char '\\')
  | 'N' => some (.char '\u0085')
  | '_' => some (.char '\u00a0')
  | 'L' => some (.char '\u2028')
  | 'P' => some (.char '\u2029')
  | 'x' => some (.code 2)
  | 'u' => some (.code 4)
  | 'U' => some (.code 8)
  | _ => none

/-- The character with this code point; surrogates and numbers beyond the last code point have none. -/
def charOfCode? (code : Nat) : Option Char :=
  if h : code.isValidChar then some (Char.ofNatAux code h) else none

/-- The character that an escape stands for, with the number of characters it takes behind the
    backslash. -/
def readEscape? : List Char → Option (Char × Nat)
  | [] => none
  | c :: rest =>
    match escape? c with
    | none => none
    | some (.char value) => some (value, 1)
    | some (.code width) => do
      let digits := rest.take width
      if digits.length < width then none
      let value ← (natOfDigits? 16 digits).bind charOfCode?
      return (value, width + 1)

/-- Goes on with a quoted scalar; `text` is what has been read, the last character first. A quote ends the
    scalar; in single quotes a doubled quote stands for one. A line break behind a backslash joins the lines
    without a space. -/
def readQuotedFrom? (single : Bool) : Nat → List Char → Source → Option (List Char × Source)
  | 0, _, _ => none
  | fuel + 1, text, source =>
    if source.atMarker then none
    else match source.rest with
      | [] => none
      | c :: rest =>
        if isBlank c || isBreak c then
          match source.gap? 0 with
          | none => none
          | some (gap, behind) => readQuotedFrom? single fuel (gap.fold.reverse ++ text) behind
        else if single && c == '\'' then
          if rest.head? = some '\'' then readQuotedFrom? single fuel ('\'' :: text) (source.skip 2)
          else some (text.reverse, source.skip 1)
        else if !single && c == '"' then some (text.reverse, source.skip 1)
        else if !single && c == '\\' then
          if rest.head?.any isBreak then
            match (source.skip 1).advance.gap? 0 with
            | none => none
            | some (gap, behind) => readQuotedFrom? single fuel (gap.breaks.reverse ++ text) behind
          else match readEscape? rest with
            | none => none
            | some (value, width) =>
              readQuotedFrom? single fuel (value :: text) (source.skip (width + 1))
        else readQuotedFrom? single fuel (c :: text) (source.skip 1)

/-- Reads the quoted scalar whose opening quote stands here. -/
def readQuoted? (single : Bool) (source : Source) : Option (List Char × Source) :=
  readQuotedFrom? single source.fuel [] (source.skip 1)

/-!
### Block scalars
-/

/-- What becomes of the line breaks at the end of a block scalar. -/
inductive Chomping where
  | strip
  | clip
  | keep
deriving DecidableEq, Repr

/-- The indicators behind the bar or the angle bracket. -/
structure BlockHeader where
  chomping : Chomping := .clip
  /-- The indentation relative to the surrounding collection, if it is given. -/
  increment : Option Nat := none

def chomping? (c : Char) : Option Chomping :=
  if c == '+' then some .keep else if c == '-' then some .strip else none

/-- Reads the digit of an indentation indicator, which is not zero. -/
def readIncrement? (source : Source) : Option (Option Nat × Source) :=
  match source.rest with
  | c :: _ =>
    if c.isDigit then
      if c == '0' then none else some (some (c.toNat - '0'.toNat), source.skip 1)
    else some (none, source)
  | [] => some (none, source)

/-- Reads the indicators in either order, up to the end of the line. -/
def readHeader? (source : Source) : Option (BlockHeader × Source) := do
  match source.rest.head?.bind chomping? with
  | some chomping =>
    let (increment, source) ← readIncrement? (source.skip 1)
    return ({ chomping, increment }, ← source.finishLine?)
  | none =>
    let (increment, source) ← readIncrement? source
    match increment, source.rest.head?.bind chomping? with
    | some _, some chomping => return ({ chomping, increment }, ← (source.skip 1).finishLine?)
    | _, _ => return ({ increment }, ← source.finishLine?)

/-- Empty lines in front of a line with content. -/
structure EmptyLines where
  breaks : List Char := []
  /-- The greatest column that blanks have reached. -/
  widest : Nat := 0

/-- Goes past empty lines and the indentation of the next one. Without a known indentation all spaces
    belong to it. A tab must not stand in the indentation. -/
def readEmptyLines? (indent : Option Nat) :
    Nat → EmptyLines → Source → Option (EmptyLines × Source)
  | 0, _, _ => none
  | fuel + 1, lines, source =>
    let spaces := (source.run (· == ' ')).length
    let width := match indent with
      | none => spaces
      | some indent => min spaces (indent - source.column)
    let source := source.skip width
    let widest := max lines.widest source.column
    let inIndentation := match indent with
      | none => true
      | some indent => source.column < indent
    if inIndentation && source.next (· == '\t') then none
    else match source.rest with
      | c :: _ =>
        if isBreak c then readEmptyLines? indent fuel ⟨lines.breaks ++ [c], widest⟩ source.advance
        else some ({ lines with widest }, source)
      | [] => some ({ lines with widest }, source)

/-- A block scalar that has been read up to the end of a line. -/
structure BlockText where
  /-- What has been read, the last character first. -/
  text : List Char := []
  /-- The break that ended the last line with content. -/
  lastBreak : List Char := []
  /-- The empty lines behind it. -/
  emptyLines : List Char := []
  /-- Whether the last line with content began with a blank. -/
  afterBlank : Bool := false

/-- Adds a line with content. In a folded scalar a line feed between two lines that do not begin with a
    blank becomes a space, or vanishes if empty lines follow it. -/
def BlockText.addLine (literal : Bool) (line lineBreak : List Char) (block : BlockText) : BlockText :=
  let blank := line.head?.any isBlank
  let joint :=
    if !literal && block.lastBreak = ['\n'] && !block.afterBlank && !blank then
      if block.emptyLines = [] then [' '] else []
    else block.lastBreak
  ⟨line.reverse ++ (block.emptyLines.reverse ++ (joint ++ block.text)), lineBreak, [], blank⟩

/-- The whole text, its end treated as the header says. -/
def BlockText.finish (chomping : Chomping) (block : BlockText) : List Char :=
  match chomping with
  | .strip => block.text.reverse
  | .clip => block.text.reverse ++ block.lastBreak
  | .keep => block.text.reverse ++ block.lastBreak ++ block.emptyLines

/-- Reads the lines that are indented by `indent`. -/
def readBlockLines? (literal : Bool) (indent : Nat) :
    Nat → BlockText → Source → Option (BlockText × Source)
  | 0, _, _ => none
  | fuel + 1, block, source =>
    if source.column ≠ indent || source.rest = [] then some (block, source)
    else
      let line := source.run fun _ => true
      let source := source.skip line.length
      let lineBreak := source.rest.take 1
      match readEmptyLines? (some indent) source.fuel {} source.advance with
      | none => none
      | some (lines, source) =>
        readBlockLines? literal indent fuel
          { block.addLine literal line lineBreak with emptyLines := lines.breaks } source

/-- Reads the block scalar whose indicator stands here. `parent` is the column of the collection around it,
    if there is one. -/
def readBlock? (literal : Bool) (parent : Option Nat) (source : Source) :
    Option (List Char × Source) := do
  let (header, source) ← readHeader? (source.skip 1)
  let given := header.increment.map fun increment => parent.getD 0 + increment
  let (lines, source) ← readEmptyLines? given source.fuel {} source
  let least := match parent with
    | none => 1
    | some column => column + 1
  let indent := given.getD (max lines.widest least)
  let (block, source) ←
    readBlockLines? literal indent source.fuel { emptyLines := lines.breaks } source
  return (block.finish header.chomping, source)

end ShellUnits.Yaml
