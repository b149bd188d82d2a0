import ShellUnits.Proofs.Lines
import ShellUnits.Proofs.Script

/-!
Reading a script back.

A script is read line by line: a header with a name, lines that start with a tab, a line that closes the
block, and an empty line before the next header. A command cannot leave its block, whatever it holds, since
each of its lines starts with a tab and no line of it holds a line feed. So from the text of a script the
functions with a body are read back, each with its name and the lines of its body.

Main statements: `Function.intercalate_commandLines`, `Script.readLines?_scriptLines`, `Script.toList_text`,
`Script.read?_write`.
-/

namespace ShellUnits

/-!
### The body of a function
-/

namespace Function

/-- The command without the line feeds at its end and without carriage returns before line feeds. -/
def plainCommand (function : Function) : List Char :=
  Text.plainEnds ((function.command.getD "").toList.rdropWhile (· == '\n'))

theorem commandLines_eq (function : Function) :
    function.commandLines =
      (Text.lines ((function.command.getD "").toList.rdropWhile (· == '\n'))).map String.ofList := by
  simp only [commandLines, Text.dropTrailing_eq_rdropWhile]

/-- The lines of the command, joined by line feeds. -/
theorem intercalate_commandLines (function : Function) :
    "\n".intercalate function.commandLines = String.ofList function.plainCommand := by
  rw [String.ext_iff, String.toList_intercalate, commandLines_eq, List.map_map, String.toList_ofList, plainCommand,
    ← Text.intercalate_lines (Text.getLast?_rdropWhile_ne '\n' _)]
  simp

theorem commandLines_eq_nil_iff (function : Function) :
    function.commandLines = [] ↔ function.plainCommand = [] := by
  rw [commandLines_eq, List.map_eq_nil_iff, Text.lines_eq_nil_iff, plainCommand, Text.plainEnds_eq_nil_iff]

theorem not_mem_of_mem_commandLines {function : Function} {line : String} (mem : line ∈ function.commandLines) :
    '\n' ∉ line.toList := by
  rw [commandLines_eq] at mem
  obtain ⟨chars, among, rfl⟩ := List.mem_map.mp mem
  rw [String.toList_ofList]
  exact Text.not_mem_of_mem_lines among

theorem directoryLines_eq (function : Function) :
    function.directoryLines = function.workingDirectory.toList.map ("cd " ++ ·) := by
  unfold directoryLines
  cases function.workingDirectory <;> rfl

/-- There is no body exactly where there is no directory and nothing but line feeds in the command. -/
theorem bodyLines_eq_nil_iff (function : Function) :
    function.bodyLines = [] ↔ function.workingDirectory = none ∧ function.plainCommand = [] := by
  rw [bodyLines, List.append_eq_nil_iff, commandLines_eq_nil_iff, directoryLines_eq, List.map_eq_nil_iff,
    Option.toList_eq_nil_iff]

/-- With a directory on one line, each line of the body is one line. -/
theorem not_mem_of_mem_bodyLines {function : Function}
    (directory : ∀ directory ∈ function.workingDirectory, '\n' ∉ directory.toList) {line : String}
    (mem : line ∈ function.bodyLines) : '\n' ∉ line.toList := by
  rcases List.mem_append.mp mem with changes | commands
  · rw [directoryLines_eq] at changes
    obtain ⟨text, given, rfl⟩ := List.mem_map.mp changes
    simpa using directory text (Option.mem_toList.mp given)
  · exact not_mem_of_mem_commandLines commands

end Function

/-!
### Reading blocks
-/

namespace Script

/-- A block of a script: the name in its header and the lines of its body without their tabs. -/
structure Block where
  name : String
  body : List String
deriving DecidableEq, Repr

/-- The name that a header gives. -/
def headerName? (line : List Char) : Option String :=
  match line.reverse with
  | '\x7b' :: ' ' :: ')' :: '(' :: name => some (String.ofList name.reverse)
  | _ => none

mutual

/-- Reads blocks from the header of the first one on. -/
def readBlocks? : List (List Char) → Option (List Block)
  | [] => none
  | header :: rest =>
    (headerName? header).bind fun name => (readBody? rest).map fun (body, blocks) => ⟨name, body⟩ :: blocks

/-- Reads the rest of a body, and the blocks after it. -/
def readBody? : List (List Char) → Option (List String × List Block)
  | ('\t' :: line) :: rest => (readBody? rest).map fun (body, blocks) => (String.ofList line :: body, blocks)
  | ['\x7d'] :: rest => (readNext? rest).map fun blocks => ([], blocks)
  | _ => none

/-- Reads the blocks after one that has been closed: none, or an empty line and then blocks. -/
def readNext? : List (List Char) → Option (List Block)
  | [] => some []
  | [] :: rest => readBlocks? rest
  | _ => none

end

/-- The lines of a text in which a line feed ends each line. -/
def endedLines? (text : String) : Option (List (List Char)) :=
  let pieces := Text.pieces '\n' text.toList
  if pieces.getLast? = some [] then some pieces.dropLast else none

/-- Reads the lines of a script; no lines are no blocks. -/
def readLines? : List (List Char) → Option (List Block)
  | [] => some []
  | lines => readBlocks? lines

/-- Reads a script. -/
def read? (text : String) : Option (List Block) :=
  (endedLines? text).bind readLines?

end Script

/-- The block of a function. -/
def Function.block (function : Function) : Script.Block :=
  ⟨function.name, function.bodyLines⟩

/-- The lines that a function is written in. -/
def Function.blockLines (function : Function) : List (List Char) :=
  (function.name.toList ++ "() \x7b".toList) :: (function.bodyLines.map ('\t' :: ·.toList) ++ [['\x7d']])

namespace Script

theorem headerName?_append (name : String) : headerName? (name.toList ++ "() \x7b".toList) = some name := by
  simp [headerName?]

/-- A body is read up to the line that closes the block, whatever the lines of the body hold. -/
theorem readBody?_append (body : List String) (rest : List (List Char)) :
    readBody? (body.map ('\t' :: ·.toList) ++ ['\x7d'] :: rest) =
      (readNext? rest).map fun blocks => (body, blocks) := by
  induction body with
  | nil => simp [readBody?]
  | cons line more ih =>
      rw [List.map_cons, List.cons_append, readBody?, ih, Option.map_map]
      simp [Function.comp_def]

/-- The block of a function is read from its lines. -/
theorem readBlocks?_append (function : Function) (rest : List (List Char)) :
    readBlocks? (function.blockLines ++ rest) = (readNext? rest).map fun blocks => function.block :: blocks := by
  rw [Function.blockLines, List.cons_append, readBlocks?, headerName?_append, Option.bind_some, List.append_assoc,
    List.singleton_append, readBody?_append, Option.map_map]
  rfl

/-- The lines of functions that others have been written before. -/
def laterLines (functions : List Function) : List (List Char) :=
  functions.flatMap fun function => [] :: function.blockLines

theorem readNext?_laterLines (functions : List Function) :
    readNext? (laterLines functions) = some (functions.map Function.block) := by
  induction functions with
  | nil => rfl
  | cons function rest ih =>
      have first : laterLines (function :: rest) = [] :: (function.blockLines ++ laterLines rest) := rfl
      rw [first, readNext?, readBlocks?_append, ih]
      rfl

/-- The lines that these functions are written in. -/
def scriptLines : List Function → List (List Char)
  | [] => []
  | function :: rest => function.blockLines ++ laterLines rest

theorem readLines?_scriptLines (functions : List Function) :
    readLines? (scriptLines functions) = some (functions.map Function.block) := by
  cases functions with
  | nil => rfl
  | cons function rest =>
      have reads := readBlocks?_append function (laterLines rest)
      rw [readNext?_laterLines, Option.map_some] at reads
      exact reads

/-!
### The text of a script
-/

theorem toList_text_function (function : Function) :
    (function.text ++ "\n").toList = function.blockLines.flatMap (· ++ ['\n']) := by
  simp [Function.text, Function.pieces, Function.blockLines, String.toList_join, List.flatMap_assoc,
    List.flatMap_map]

theorem toList_laterText (functions : List Function) :
    (laterText functions).toList =
      (laterLines (functions.filter fun function => !function.isEmpty)).flatMap (· ++ ['\n']) := by
  have each : ∀ function : Function, ("\n" ++ function.text ++ "\n").toList =
      ([] :: function.blockLines).flatMap (· ++ ['\n']) := by
    intro function
    rw [List.flatMap_cons, ← toList_text_function, String.append_assoc, String.toList_append]
    rfl
  simp only [laterText, laterLines, String.toList_join, List.flatMap_map, List.flatMap_assoc, each]

/-- The text of a script is the lines of the functions with a body, each ended by a line feed. -/
theorem toList_text (functions : List Function) :
    (text functions).toList =
      (scriptLines (functions.filter fun function => !function.isEmpty)).flatMap (· ++ ['\n']) := by
  induction functions with
  | nil => rfl
  | cons function rest ih =>
      cases body : function.isEmpty with
      | true =>
          rw [text_cons_of_empty body, ih]
          simp [body]
      | false =>
          rw [text_cons_of_body body, String.toList_append, toList_text_function, toList_laterText]
          simp [body, scriptLines]

/-- Lines that hold no line feeds are found again in the text that they make. -/
theorem endedLines?_of_toList {text : String} {lines : List (List Char)}
    (oneLine : ∀ line ∈ lines, '\n' ∉ line) (made : text.toList = lines.flatMap (· ++ ['\n'])) :
    endedLines? text = some lines := by
  simp only [endedLines?, made, Text.pieces_flatMap oneLine, List.getLast?_concat, if_true, List.dropLast_concat]

section OneLine

variable {functions : List Function}

theorem not_mem_of_mem_blockLines {function : Function} (name : '\n' ∉ function.name.toList)
    (directory : ∀ directory ∈ function.workingDirectory, '\n' ∉ directory.toList) :
    ∀ line ∈ function.blockLines, '\n' ∉ line := by
  intro line mem
  simp only [Function.blockLines, List.mem_cons, List.mem_append, List.mem_map, List.not_mem_nil, or_false] at mem
  rcases mem with rfl | ⟨text, inBody, rfl⟩ | rfl
  · simpa using name
  · simpa using Function.not_mem_of_mem_bodyLines directory inBody
  · decide

/-- Names and directories on one line each make lines that hold no line feeds. -/
theorem not_mem_of_mem_scriptLines (names : ∀ function ∈ functions, '\n' ∉ function.name.toList)
    (directories : ∀ function ∈ functions, ∀ directory ∈ function.workingDirectory, '\n' ∉ directory.toList) :
    ∀ line ∈ scriptLines functions, '\n' ∉ line := by
  have block : ∀ function ∈ functions, ∀ line ∈ function.blockLines, '\n' ∉ line := by
    intro function mem
    exact not_mem_of_mem_blockLines (names function mem) (directories function mem)
  cases functions with
  | nil => simp [scriptLines]
  | cons function rest =>
      obtain ⟨first, others⟩ := List.forall_mem_cons.mp block
      intro line mem
      rcases List.mem_append.mp mem with inFirst | later
      · exact first line inFirst
      · obtain ⟨other, among, inOther⟩ := List.mem_flatMap.mp later
        rcases List.mem_cons.mp inOther with rfl | inBlock
        · exact List.not_mem_nil
        · exact others other among line inBlock

/-- What is written of functions with names and directories on one line each is read back: the functions with
a body, in order, with their names and bodies. The body changes to the directory and then holds the lines of
the command, and a function without a body has neither. -/
theorem read?_write (names : ∀ function ∈ functions, '\n' ∉ function.name.toList)
    (directories : ∀ function ∈ functions, ∀ directory ∈ function.workingDirectory, '\n' ∉ directory.toList) :
    (write {} functions).sink.bytes = utf8Bytes (text functions) ∧ (write {} functions).complete = true ∧
      read? (text functions) = some ((functions.filter fun function => !function.isEmpty).map
        fun function => ⟨function.name, function.bodyLines⟩) ∧
      ∀ function : Function,
        function.bodyLines = function.workingDirectory.toList.map ("cd " ++ ·) ++ function.commandLines ∧
          "\n".intercalate function.commandLines = String.ofList function.plainCommand ∧
          (∀ line ∈ function.commandLines, '\n' ∉ line.toList) ∧
          (function.isEmpty = true ↔ function.bodyLines = []) ∧
          (function.bodyLines = [] ↔ function.workingDirectory = none ∧ function.plainCommand = []) := by
  obtain ⟨bytes, complete⟩ := write_unlimited functions
  refine ⟨bytes, complete, ?_, ?_⟩
  · have oneLine : ∀ line ∈ scriptLines (functions.filter fun function => !function.isEmpty), '\n' ∉ line := by
      apply not_mem_of_mem_scriptLines
      · intro function mem
        exact names function (List.mem_of_mem_filter mem)
      · intro function mem
        exact directories function (List.mem_of_mem_filter mem)
    rw [read?, endedLines?_of_toList oneLine (toList_text functions), Option.bind_some, readLines?_scriptLines]
    rfl
  · intro function
    refine ⟨?_, function.intercalate_commandLines, ?_, ?_, function.bodyLines_eq_nil_iff⟩
    · rw [Function.bodyLines, Function.directoryLines_eq]
    · intro line mem
      exact Function.not_mem_of_mem_commandLines mem
    · exact List.isEmpty_iff

end OneLine

/-- A command that holds what ends a block and what starts one, between functions without a body. -/
def disguised : List Function :=
  [⟨"first", none, some "\n\n"⟩,
    ⟨"\x7d", some "", some "\x7d\n\nother() \x7b\r\n\tcd /\r\n\n"⟩,
    ⟨"between", none, none⟩,
    ⟨"a() \x7b", none, some "\n\r"⟩]

theorem read?_write_disguised :
    (write {} disguised).sink.bytes = utf8Bytes (text disguised) ∧
      read? (text disguised) = some [⟨"\x7d", ["cd ", "\x7d", "", "other() \x7b", "\tcd /\r"]⟩,
        ⟨"a() \x7b", ["", "\r"]⟩] := by
  have names : ∀ function ∈ disguised, '\n' ∉ function.name.toList := by decide
  have directories : ∀ function ∈ disguised, ∀ directory ∈ function.workingDirectory, '\n' ∉ directory.toList := by
    decide
  obtain ⟨bytes, -, reads, -⟩ := read?_write names directories
  refine ⟨bytes, ?_⟩
  rw [reads]
  decide

end Script

end ShellUnits
