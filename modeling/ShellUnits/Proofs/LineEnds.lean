import ShellUnits.Proofs.Blocks

/-!
Commands with two ways to end a line.

Between lines a carriage return goes away with the line feed after it, but at the end of a command only line feeds
are dropped. So a command whose lines end in both is written like the one whose lines end in line feeds alone,
unless it ends in a line end itself: then the last carriage return stays, as a character of the last line or as a
line of its own, which makes a body even where there was none.

Main definitions: `Text.withReturns`, `Function.withReturns`.
Main statements: `Function.commandLines_eq_iff`, `Function.text_eq_iff_of_same_head`,
`Function.written_withReturns_iff`.
-/

namespace ShellUnits

/-!
### Carriage returns put before line feeds
-/

namespace Text

/-- The text with a carriage return before every line feed. -/
def withReturns (text : List Char) : List Char :=
  text.flatMap fun c => if c = '\n' then ['\r', '\n'] else [c]

theorem plainEnds_cons_of_ne {c : Char} (notReturn : c ≠ '\r') (rest : List Char) :
    plainEnds (c :: rest) = c :: plainEnds rest := by
  rw [plainEnds]
  intro tail isReturn
  exact absurd isReturn notReturn

/-- Where there are none before, exactly the carriage returns that were put in are taken out. -/
theorem plainEnds_withReturns_append {text : List Char} (plain : '\r' ∉ text) (rest : List Char) :
    plainEnds (withReturns text ++ rest) = text ++ plainEnds rest := by
  induction text with
  | nil => rfl
  | cons c more ih =>
      simp only [List.mem_cons, not_or] at plain
      rcases plain with ⟨notReturn, plain⟩
      by_cases isFeed : c = '\n'
      · have first : withReturns (c :: more) ++ rest = '\r' :: '\n' :: (withReturns more ++ rest) := by
          simp [withReturns, isFeed]
        rw [first, plainEnds, ih plain, isFeed, List.cons_append]
      · have first : withReturns (c :: more) ++ rest = c :: (withReturns more ++ rest) := by
          simp [withReturns, isFeed]
        rw [first, plainEnds_cons_of_ne (Ne.symm notReturn), ih plain, List.cons_append]

/-- In front of the first carriage return nothing is taken out. -/
theorem plainEnds_append_of_plain {text : List Char} (plain : '\r' ∉ text) (rest : List Char) :
    plainEnds (text ++ rest) = text ++ plainEnds rest := by
  induction text with
  | nil => rfl
  | cons c more ih =>
      simp only [List.mem_cons, not_or] at plain
      rw [List.cons_append, plainEnds_cons_of_ne (Ne.symm plain.1), ih plain.2, List.cons_append]

/-- With the carriage returns put in, nothing is dropped at the end that was not dropped without them. -/
theorem rdropWhile_withReturns_of_not_ended {text : List Char} (notEnded : text.getLast? ≠ some '\n') :
    (withReturns text).rdropWhile (· == '\n') = withReturns text ∧ text.rdropWhile (· == '\n') = text := by
  rcases List.eq_nil_or_concat' text with rfl | ⟨before, last, rfl⟩
  · exact ⟨rfl, rfl⟩
  · have notFeed : last ≠ '\n' := by simpa using notEnded
    have whole : withReturns (before ++ [last]) = withReturns before ++ [last] := by
      simp [withReturns, notFeed]
    constructor
    · rw [whole, List.rdropWhile_concat_neg _ _ _ (by simpa using notFeed)]
    · exact List.rdropWhile_concat_neg _ _ _ (by simpa using notFeed)

/-- The last line feed goes, and the carriage return that was put before it keeps what is before. -/
theorem rdropWhile_withReturns_concat (before : List Char) :
    (withReturns (before ++ ['\n'])).rdropWhile (· == '\n') = withReturns before ++ ['\r'] := by
  have whole : withReturns (before ++ ['\n']) = withReturns before ++ ['\r'] ++ ['\n'] := by
    simp [withReturns]
  rw [whole, List.rdropWhile_concat_pos _ _ _ (by simp), List.rdropWhile_concat_neg _ _ _ (by simp)]

end Text

/-!
### Commands with the same lines
-/

namespace Function

variable {function other : Function}

/-- The lines of a command are the pieces of what is left of it. -/
theorem commandLines_eq_pieces (notEmpty : function.plainCommand ≠ []) :
    function.commandLines = (Text.pieces '\n' function.plainCommand).map String.ofList := by
  have joined : ['\n'].intercalate (function.commandLines.map String.toList) = function.plainCommand := by
    simpa [String.toList_intercalate] using congrArg String.toList function.intercalate_commandLines
  rw [← joined, Text.pieces_intercalate]
  · intro line mem
    exact not_mem_of_mem_commandLines mem
  · rwa [ne_eq, commandLines_eq_nil_iff]

/-- Commands have the same lines exactly if the same is left of them. -/
theorem commandLines_eq_iff :
    function.commandLines = other.commandLines ↔ function.plainCommand = other.plainCommand := by
  constructor
  · intro same
    have joined : String.ofList function.plainCommand = String.ofList other.plainCommand := by
      rw [← intercalate_commandLines, same, intercalate_commandLines]
    simpa using congrArg String.toList joined
  · intro same
    by_cases empty : function.plainCommand = []
    · rw [(commandLines_eq_nil_iff function).mpr empty, (commandLines_eq_nil_iff other).mpr (same ▸ empty)]
    · rw [commandLines_eq_pieces empty, commandLines_eq_pieces (same ▸ empty), same]

/-- Lines that are each written between a tab and a line feed can be read off what is written. -/
theorem eq_of_written_eq {lines others : List String} (oneLine : ∀ line ∈ lines, '\n' ∉ line.toList)
    (othersToo : ∀ line ∈ others, '\n' ∉ line.toList)
    (same : (lines.map ('\t' :: ·.toList)).flatMap (· ++ ['\n']) =
      (others.map ('\t' :: ·.toList)).flatMap (· ++ ['\n'])) : lines = others := by
  have pieces : ∀ {lines : List String}, (∀ line ∈ lines, '\n' ∉ line.toList) →
      Text.pieces '\n' ((lines.map ('\t' :: ·.toList)).flatMap (· ++ ['\n'])) =
        lines.map ('\t' :: ·.toList) ++ [[]] := by
    intro lines oneLine
    apply Text.pieces_flatMap
    rw [List.forall_mem_map]
    intro line mem
    simpa using oneLine line mem
  have cut := congrArg (Text.pieces '\n') same
  rw [pieces oneLine, pieces othersToo, List.append_left_inj] at cut
  refine List.map_injective_iff.mpr ?_ cut
  intro line otherLine tabbed
  exact String.toList_injective (List.cons.inj tabbed).2

/-- Under one name and with one directory, functions have the same text exactly if they have the same lines. -/
theorem text_eq_iff_of_same_head (name : function.name = other.name)
    (directory : function.workingDirectory = other.workingDirectory) :
    function.text = other.text ↔ function.commandLines = other.commandLines := by
  have head : function.directoryLines = other.directoryLines := by
    rw [directoryLines_eq, directoryLines_eq, directory]
  constructor
  · intro same
    have written : (function.commandLines.map ('\t' :: ·.toList)).flatMap (· ++ ['\n']) =
        (other.commandLines.map ('\t' :: ·.toList)).flatMap (· ++ ['\n']) := by
      simpa [text, pieces, bodyLines, name, head, String.toList_join, List.flatMap_assoc, List.flatMap_map]
        using congrArg String.toList same
    apply eq_of_written_eq _ _ written
    · intro line mem
      exact not_mem_of_mem_commandLines mem
    · intro line mem
      exact not_mem_of_mem_commandLines mem
  · intro same
    rw [text, text, pieces, pieces, bodyLines, bodyLines, name, head, same]

/-!
### Functions with carriage returns put in
-/

/-- The command with a carriage return before every line feed. -/
def withReturns (function : Function) : Function :=
  { function with command := function.command.map fun text => String.ofList (Text.withReturns text.toList) }

theorem command_withReturns (function : Function) :
    (function.withReturns.command.getD "").toList = Text.withReturns (function.command.getD "").toList := by
  unfold withReturns
  cases function.command with
  | none => rfl
  | some text => simp

section Plain

variable (plain : '\r' ∉ (function.command.getD "").toList)
include plain

theorem plainCommand_of_plain :
    function.plainCommand = (function.command.getD "").toList.rdropWhile (· == '\n') := by
  have plainRest : '\r' ∉ (function.command.getD "").toList.rdropWhile (· == '\n') := by
    intro mem
    exact plain ((List.rdropWhile_prefix _ _).subset mem)
  simpa [plainCommand, Text.plainEnds] using Text.plainEnds_append_of_plain plainRest []

/-- Where no line feed ends the command, the carriage returns go away again. -/
theorem plainCommand_withReturns_of_not_ended (notEnded : (function.command.getD "").toList.getLast? ≠ some '\n') :
    function.withReturns.plainCommand = function.plainCommand := by
  rcases Text.rdropWhile_withReturns_of_not_ended notEnded with ⟨returned, kept⟩
  rw [plainCommand_of_plain plain, kept, plainCommand, command_withReturns, returned]
  simpa [Text.plainEnds] using Text.plainEnds_withReturns_append plain []

/-- Where a line feed ends the command, the carriage return that was put before it stays, as if it stood there alone. -/
theorem plainCommand_withReturns_of_ended {before : List Char}
    (ended : (function.command.getD "").toList = before ++ ['\n']) :
    function.withReturns.plainCommand = before ++ ['\r'] ∧
      ({ function with command := some (String.ofList (before ++ ['\r'])) } : Function).plainCommand =
        before ++ ['\r'] := by
  have plainBefore : '\r' ∉ before := by
    intro mem
    exact plain (ended ▸ List.mem_append_left _ mem)
  constructor
  · rw [plainCommand, command_withReturns, ended, Text.rdropWhile_withReturns_concat,
      Text.plainEnds_withReturns_append plainBefore]
    rfl
  · rw [plainCommand, Option.getD_some, String.toList_ofList, List.rdropWhile_concat_neg _ _ _ (by simp),
      Text.plainEnds_append_of_plain plainBefore]
    rfl

/-- Exactly the commands that do not end in a line feed have the same lines. -/
theorem commandLines_withReturns_iff :
    function.withReturns.commandLines = function.commandLines ↔
      (function.command.getD "").toList.getLast? ≠ some '\n' := by
  rw [commandLines_eq_iff]
  constructor
  · intro same isFeed
    obtain ⟨before, ended⟩ := List.getLast?_eq_some_iff.mp isFeed
    rw [(plainCommand_withReturns_of_ended plain ended).1, plainCommand_of_plain plain] at same
    have isReturn : '\r' ∈ (function.command.getD "").toList.rdropWhile (· == '\n') :=
      same ▸ List.mem_append_right before (List.mem_singleton_self '\r')
    exact plain ((List.rdropWhile_prefix _ _).subset isReturn)
  · exact plainCommand_withReturns_of_not_ended plain

end Plain

/-- A function without carriage returns in its command, and the same with one before every line feed: they are alike
in whether they have a body and in their text exactly if no line feed ends the command. Otherwise the second one has a
body, and the text of a command with a carriage return in place of the last line feed. -/
theorem written_withReturns_iff (plain : '\r' ∉ (function.command.getD "").toList) :
    ((function.withReturns.isEmpty = function.isEmpty ∧ function.withReturns.text = function.text) ↔
        (function.command.getD "").toList.getLast? ≠ some '\n') ∧
      ∀ before, (function.command.getD "").toList = before ++ ['\n'] →
        function.withReturns.isEmpty = false ∧
          function.withReturns.text = { function with command := some (String.ofList (before ++ ['\r'])) }.text := by
  have text : function.withReturns.text = function.text ↔ function.withReturns.commandLines = function.commandLines :=
    text_eq_iff_of_same_head rfl rfl
  constructor
  · rw [text, commandLines_withReturns_iff plain]
    constructor
    · exact And.right
    · intro notEnded
      refine ⟨?_, notEnded⟩
      rw [isEmpty, isEmpty, bodyLines, bodyLines, (commandLines_withReturns_iff plain).mpr notEnded]
      rfl
  · intro before ended
    rcases plainCommand_withReturns_of_ended plain ended with ⟨left, alone⟩
    constructor
    · rw [isEmpty, List.isEmpty_eq_false_iff, ne_eq, bodyLines_eq_nil_iff, left]
      simp
    · refine (text_eq_iff_of_same_head (by rfl) (by rfl)).mpr ?_
      rw [commandLines_eq_iff, left, alone]

/-- A line end between lines and a blank line make no difference, and one at the end is half dropped. -/
theorem written_withReturns_make :
    ('\r' ∉ "make\n\n\tmake test".toList ∧
      (⟨"a", some "x", some "make\r\n\r\n\tmake test"⟩ : Function).text =
        (⟨"a", some "x", some "make\n\n\tmake test"⟩ : Function).text) ∧
    '\r' ∉ "\nmake\n".toList ∧
      (⟨"a", none, some "\r\nmake\r\n"⟩ : Function).text = (⟨"a", none, some "\nmake\r"⟩ : Function).text := by
  have between : '\r' ∉ "make\n\n\tmake test".toList := by decide
  have atEnd : '\r' ∉ "\nmake\n".toList := by decide
  obtain ⟨same, -⟩ := @written_withReturns_iff ⟨"a", some "x", some "make\n\n\tmake test"⟩ between
  obtain ⟨-, ended⟩ := @written_withReturns_iff ⟨"a", none, some "\nmake\n"⟩ atEnd
  exact ⟨⟨between, (same.mpr (by decide)).2⟩, atEnd, (ended "\nmake".toList (by decide)).2⟩

/-- The carriage return before the last line feed is written, and makes a body of a command that is one line end. -/
theorem text_keeps_last_return :
    (⟨"a", none, some "make\n"⟩ : Function).withReturns = ⟨"a", none, some "make\r\n"⟩ ∧
      (⟨"a", none, some "make\n"⟩ : Function).text = "a() \x7b\n\tmake\n\x7d" ∧
      (⟨"a", none, some "make\r\n"⟩ : Function).text = "a() \x7b\n\tmake\r\n\x7d" ∧
      (⟨"b", none, some "\n"⟩ : Function).withReturns = ⟨"b", none, some "\r\n"⟩ ∧
      (⟨"b", none, some "\n"⟩ : Function).isEmpty = true ∧
      (⟨"b", none, some "\r\n"⟩ : Function).isEmpty = false := by
  decide

end Function

end ShellUnits
