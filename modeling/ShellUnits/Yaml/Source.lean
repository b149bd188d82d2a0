import ShellUnits.Yaml.Char

/-!
The text of a document as it is being read, with the place that reading has reached.

Line ends are brought to one form beforehand: a carriage return, a carriage return with a line feed and a
next-line character each become a line feed. Line and paragraph separators end a line too, but stay what
they are.

Main definitions: `normalizeBreaks`, `Source`, `Source.gap?`.
-/

namespace ShellUnits.Yaml

/-- The text with all line ends in one form. -/
def normalizeBreaks : List Char → List Char
  | [] => []
  | '\r' :: '\n' :: rest => '\n' :: normalizeBreaks rest
  | c :: rest => (if c == '\r' || c == '\u0085' then '\n' else c) :: normalizeBreaks rest

/-- The text still to be read and where it begins. -/
structure Source where
  rest : List Char
  /-- How many characters the whole text has. -/
  size : Nat
  index : Nat := 0
  line : Nat := 0
  column : Nat := 0

namespace Source

/-- A text in front of its first character. -/
def ofText (text : List Char) : Source := ⟨text, text.length, 0, 0, 0⟩

/-- More steps than there are characters left. -/
def fuel (source : Source) : Nat := source.size + 1 - source.index

/-- Goes past one character. -/
def advance (source : Source) : Source :=
  match source.rest with
  | [] => source
  | c :: rest =>
    if isBreak c then ⟨rest, source.size, source.index + 1, source.line + 1, 0⟩
    else ⟨rest, source.size, source.index + 1, source.line, source.column + 1⟩

/-- Goes past characters of the current line. -/
def skip (count : Nat) (source : Source) : Source :=
  ⟨source.rest.drop count, source.size, source.index + count, source.line, source.column + count⟩

/-- The characters of the current line up to the first that does not satisfy `p`. -/
def run (p : Char → Bool) (source : Source) : List Char :=
  source.rest.takeWhile fun c => p c && !isBreak c

/-- Goes past the characters of the current line that satisfy `p`. -/
def dropRun (p : Char → Bool) (source : Source) : Source :=
  source.skip (source.run p).length

/-- Whether the text goes on with this. -/
def startsWith (text : String) (source : Source) : Bool :=
  text.toList.isPrefixOf source.rest

/-- Whether the next character satisfies `p`. -/
def next (p : Char → Bool) (source : Source) : Bool :=
  source.rest.head?.any p

/-- Whether the text has ended or a line ends here. -/
def atLineEnd (source : Source) : Bool :=
  match source.rest with
  | [] => true
  | c :: _ => isBreak c

/-- Whether a document marker stands here at the start of a line. -/
def atMarker (source : Source) : Bool :=
  source.column == 0 && (source.startsWith "---" || source.startsWith "...") &&
    atGap (source.rest.drop 3)

/-- Goes past blanks and a comment up to the end of the line; `none` if something else is in the way. -/
def finishLine? (source : Source) : Option Source :=
  let source := source.dropRun isBlank
  let source := if source.next (· == '#') then source.dropRun fun _ => true else source
  if source.atLineEnd then some source.advance else none

end Source

/-!
### Gaps between the words of a scalar

Blanks within a line are kept. If a gap has line breaks, the blanks around them vanish and the breaks are
folded: a single line feed becomes a space, of several the first one vanishes.
-/

/-- What stands between two words of a scalar: blanks, or line breaks with blanks around them. -/
structure Gap where
  blanks : List Char := []
  breaks : List Char := []

/-- The text that a gap contributes. -/
def Gap.fold (gap : Gap) : List Char :=
  match gap.breaks with
  | [] => gap.blanks
  | ['\n'] => [' ']
  | '\n' :: more => more
  | breaks => breaks

/-- Reads a gap. `tabLimit` is the column before which a line must not have tabs. -/
def Source.gapFrom? (tabLimit : Nat) : Nat → Gap → Source → Option (Gap × Source)
  | 0, gap, source => some (gap, source)
  | fuel + 1, gap, source =>
    match source.rest with
    | [] => some (gap, source)
    | c :: _ =>
      if isBreak c then
        gapFrom? tabLimit fuel { blanks := [], breaks := gap.breaks ++ [c] } source.advance
      else if isBlank c then
        if gap.breaks = [] then
          gapFrom? tabLimit fuel { gap with blanks := gap.blanks ++ [c] } source.advance
        else if c == '\t' && source.column < tabLimit then none
        else gapFrom? tabLimit fuel gap source.advance
      else some (gap, source)

/-- Reads the gap that begins here. -/
def Source.gap? (tabLimit : Nat) (source : Source) : Option (Gap × Source) :=
  source.gapFrom? tabLimit source.fuel {}

end ShellUnits.Yaml
