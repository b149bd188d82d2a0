import ShellUnits.Text.WhiteSpace
import ShellUnits.Text.Lines

/-!
The reference syntax `$(a.b.c)`.

A text is a reference only as a whole: `$(`, ids joined by dots, `)`. The inner text holds no white space
and no parentheses, so that shell command substitutions such as `$(git rev-parse HEAD)` stay commands.
`$()` is a reference with no ids at all.

Main definitions: `formatReference`, `parseReference?`.
-/

namespace ShellUnits

open Text

/-- The text of a reference to the unit that these ids lead to. -/
def formatReference (ids : List String) : String :=
  "$(" ++ ".".intercalate ids ++ ")"

/-- Whether the character can stand between the parentheses of a reference. -/
def isReferenceChar (c : Char) : Bool :=
  !(isWhiteSpace c || c == '(' || c == ')')

/-- The ids that the text between the parentheses holds. -/
def parseIds? (inner : List Char) : Option (List String) :=
  if inner = [] then some []
  else if inner.all isReferenceChar then some ((pieces '.' inner).map String.ofList)
  else none

/-- The ids of a text that is a reference as a whole. -/
def parseReference? (text : String) : Option (List String) :=
  match text.toList with
  | '$' :: '(' :: rest => if rest.getLast? = some ')' then parseIds? rest.dropLast else none
  | _ => none

end ShellUnits
