/-!
Cutting text into pieces and lines.

`pieces` cuts at every separator, so that joining the pieces gives the text back. `lines` ends a line at
a line feed only, together with a carriage return directly before it; text after the last line feed is a
line of its own, carriage returns included.

Main definitions: `pieces`, `dropTrailing`, `lines`.
-/

namespace ShellUnits.Text

/-- The pieces between the separators; always at least one, and one more than there are separators. -/
def pieces (sep : Char) : List Char → List (List Char)
  | [] => [[]]
  | c :: rest =>
    if c = sep then [] :: pieces sep rest
    else match pieces sep rest with
      | [] => [[c]]
      | piece :: more => (c :: piece) :: more

/-- The text without the characters at its end that satisfy `p`. -/
def dropTrailing (p : Char → Bool) : List Char → List Char
  | [] => []
  | c :: rest =>
    match dropTrailing p rest with
    | [] => if p c then [] else [c]
    | kept => c :: kept

/-- The text without one carriage return at its end. -/
def dropReturn : List Char → List Char
  | [] => []
  | [c] => if c = '\r' then [] else [c]
  | c :: rest => c :: dropReturn rest

/-- Reads pieces between line feeds as lines: each but the last was ended by a line feed, so it loses a
    carriage return at its end; the last is a line only if it is not empty. -/
def closeLines : List (List Char) → List (List Char)
  | [] => []
  | [last] => if last = [] then [] else [last]
  | piece :: rest => dropReturn piece :: closeLines rest

/-- The lines of a text. -/
def lines (text : List Char) : List (List Char) :=
  closeLines (pieces '\n' text)

end ShellUnits.Text
