import ShellUnits.Yaml.Char
import ShellUnits.Yaml.Plain
import ShellUnits.Text.Hex

/-!
Writing strings as YAML scalars.

A string is written in the simplest style that can hold it. A string with a line feed asks for the literal
style, a string that would be read as something else for single quotes, any other string for the plain
style. A style that cannot hold the string gives way: plain to single quotes, single quotes and the literal
style to double quotes, which can hold every string.

Main definitions: `Yaml.ScalarStyle`, `Yaml.styleOf`, `Yaml.scalarText`.
-/

namespace ShellUnits.Yaml

open Text

/-- How a string is written. -/
inductive ScalarStyle where
  | plain
  | singleQuoted
  | doubleQuoted
  | literal
deriving DecidableEq, Repr

/-!
### What each style can hold
-/

/-- Whether some character satisfying `p` is directly followed by one satisfying `q`. -/
def adjacent (p q : Char → Bool) : List Char → Bool
  | c :: d :: rest => (p c && q d) || adjacent p q (d :: rest)
  | _ => false

def isSpace (c : Char) : Bool := c == ' '

/-- Whether the text cannot be written without escapes. -/
def hasSpecial (text : List Char) : Bool := text.any fun c => !isPrintable c

/-- Whether the text holds a colon before a gap, or a number sign after one. -/
def hasInnerIndicator : Bool → List Char → Bool
  | _, [] => false
  | afterGap, c :: rest =>
    (c == ':' && atGap rest) || (c == '#' && afterGap) || hasInnerIndicator (isBlank c || isBreak c) rest

/-- Whether the text begins like something other than a plain scalar. -/
def hasLeadingIndicator (text : List Char) : Bool :=
  "---".toList.isPrefixOf text || "...".toList.isPrefixOf text ||
    match text with
    | [] => false
    | c :: rest =>
      "#,[]{}&*!|>'\"%@`".toList.contains c || ((c == '?' || c == ':' || c == '-') && atGap rest)

/-- Whether a space or a line break stands at the start or the end. -/
def hasOuterGap (text : List Char) : Bool :=
  text.head?.any isSpace || text.getLast?.any isSpace

def plainHolds (text : List Char) : Bool :=
  !(hasSpecial text || text.any isBreak || hasOuterGap text || hasLeadingIndicator text ||
    hasInnerIndicator false text)

def singleQuotesHold (text : List Char) : Bool :=
  !(hasSpecial text || adjacent isSpace isBreak text || adjacent isBreak isSpace text)

def literalHolds (text : List Char) : Bool :=
  !(hasSpecial text || adjacent isSpace isBreak text || text.getLast?.any isSpace)

/-- The style that a string is written in. -/
def styleOf (text : List Char) : ScalarStyle :=
  let quoted := if singleQuotesHold text then .singleQuoted else .doubleQuoted
  if text.contains '\n' then (if literalHolds text then .literal else .doubleQuoted)
  else if isMistakable text then quoted
  else if plainHolds text then .plain
  else quoted

/-!
### The text of each style

All texts end their line. Further lines are indented by `indent`.
-/

/-- Puts the indentation before every character that begins a line after a break. -/
def indentLines (indent : Nat) : Bool → List Char → List Char
  | atStart, [] => if atStart then List.replicate indent ' ' else []
  | atStart, c :: rest =>
    if isBreak c then c :: indentLines indent true rest
    else (if atStart then List.replicate indent ' ' else []) ++ c :: indentLines indent false rest

def singleQuoted (indent : Nat) (text : List Char) : List Char :=
  '\'' :: (indentLines indent false (text.flatMap fun c => if c = '\'' then ['\'', '\''] else [c])) ++ ['\'']

/-- The escape of a character in double quotes. -/
def escapeChar (c : Char) : List Char :=
  let n := c.toNat
  if n = 0 then "\\0".toList
  else if n = 7 then "\\a".toList
  else if n = 8 then "\\b".toList
  else if n = 9 then "\\t".toList
  else if n = 10 then "\\n".toList
  else if n = 11 then "\\v".toList
  else if n = 12 then "\\f".toList
  else if n = 13 then "\\r".toList
  else if n = 27 then "\\e".toList
  else if c = '"' then "\\\"".toList
  else if c = '\\' then "\\\\".toList
  else if n = 0x85 then "\\N".toList
  else if n = 0x2028 then "\\L".toList
  else if n = 0x2029 then "\\P".toList
  else if n ≤ 0xFF then "\\x".toList ++ upperHexDigits 2 n
  else if n ≤ 0xFFFF then "\\u".toList ++ upperHexDigits 4 n
  else "\\U".toList ++ upperHexDigits 8 n

def doubleQuoted (text : List Char) : List Char :=
  '"' :: (text.flatMap fun c =>
    if !isPrintable c || isBreak c || c = '"' || c = '\\' then escapeChar c else [c]) ++ ['"']

/-- The indicators after the bar of a literal: the indentation, where the first line does not show it, and
    what becomes of the line breaks at the end. -/
def literalHints (text : List Char) : List Char :=
  let indentation := if text.head?.any (fun c => isSpace c || isBreak c) then ['2'] else []
  let chomping := match text.reverse with
    | [] => ['-']
    | [last] => if isBreak last then ['+'] else ['-']
    | last :: previous :: _ =>
      if !isBreak last then ['-'] else if isBreak previous then ['+'] else []
  indentation ++ chomping

/-- The lines of a literal; a break that ends the text is not doubled. -/
def literalLines (indent : Nat) : Bool → List Char → List Char
  | atStart, [] => if atStart then [] else ['\n']
  | atStart, c :: rest =>
    if isBreak c then c :: literalLines indent true rest
    else (if atStart then List.replicate indent ' ' else []) ++ c :: literalLines indent false rest

/-- The text of a string in its style, with its line ended; further lines are indented by `indent`. -/
def scalarText (indent : Nat) (text : List Char) : List Char :=
  match styleOf text with
  | .plain => text ++ ['\n']
  | .singleQuoted => singleQuoted indent text ++ ['\n']
  | .doubleQuoted => doubleQuoted text ++ ['\n']
  | .literal => '|' :: literalHints text ++ '\n' :: literalLines indent true text

end ShellUnits.Yaml
