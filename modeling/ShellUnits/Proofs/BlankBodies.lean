import Mathlib.Tactic.MkIffOfInductiveProp
import ShellUnits.Document.Load
import ShellUnits.Proofs.Blocks
import ShellUnits.Proofs.Locations
import ShellUnits.Text.WhiteSpace

/-!
Bodies that a shell does not accept.

A shell refuses a block whose body is nothing but white space. Blocks are written of the functions with a body, and
only line feeds at the end of a command do not count for that: blanks, tabs and carriage returns make a body too, of
lines without anything on them. So a block that a shell refuses is written exactly for a unit that has no directory
and whose command is white space, but not line feeds alone.

Main statements: `Script.text_eq_blocks`, `Function.isEmpty_iff`, `Function.block_usable_iff`,
`compile_blocks_usable_iff`.
-/

namespace ShellUnits

/-!
### Written blocks
-/

namespace Script

/-- Some line of the body holds more than white space. -/
def Block.Usable (block : Block) : Prop :=
  ∃ line ∈ block.body, ∃ c ∈ line.toList, Text.isWhiteSpace c = false

-- The text is tested by Booleans, since a quantifier over characters may be decided by going through all of them.
instance (block : Block) : Decidable block.Usable :=
  decidable_of_iff (block.body.any fun line => line.toList.any fun c => !Text.isWhiteSpace c) (by simp [Block.Usable])

/-- The text of a block, with the line end after it. -/
def Block.text (block : Block) : String :=
  block.name ++ "() \x7b\n" ++ String.join (block.body.map fun line => "\t" ++ line ++ "\n") ++ "\x7d\n"

/-- The blocks of the functions with a body. -/
def blocks (functions : List Function) : List Block :=
  (functions.filter fun function => !function.isEmpty).map Function.block

theorem text_block (function : Function) : function.block.text = function.text ++ "\n" := by
  rw [String.ext_iff]
  simp [Block.text, Function.block, Function.text, Function.pieces, String.toList_join, List.flatMap_assoc,
    List.flatMap_map]

/-- A script is the texts of its blocks with empty lines between them. -/
theorem text_eq_blocks (functions : List Function) :
    text functions = "\n".intercalate ((blocks functions).map Block.text) := by
  simp only [text, blocks, List.map_map, Function.comp_def, text_block]

theorem forall_mem_blocks_iff {functions : List Function} {P : Block → Prop} :
    (∀ block ∈ blocks functions, P block) ↔ ∀ function ∈ functions, function.isEmpty = false → P function.block := by
  simp only [blocks, List.forall_mem_map, List.mem_filter, Bool.not_eq_true', and_imp]

end Script

/-!
### Bodies and commands
-/

/-- With this directory and this command a body is blank: there is no directory, and the command is white space that
is more than line feeds. -/
@[mk_iff]
structure BlankBody (directory command : Option String) : Prop where
  noDirectory : directory = none
  whiteSpace : ∀ c ∈ (command.getD "").toList, Text.isWhiteSpace c = true
  notFeeds : ∃ c ∈ (command.getD "").toList, c ≠ '\n'

instance (directory command : Option String) : Decidable (BlankBody directory command) :=
  let text := (command.getD "").toList
  decidable_of_iff (directory = none ∧ text.all Text.isWhiteSpace ∧ text.any (· != '\n'))
    (by simp [blankBody_iff, text])

namespace Function

variable {function : Function}

/-- A character that ends no line is in a line of the command exactly if it is in the command. -/
theorem exists_mem_commandLines_iff {c : Char} (notFeed : c ≠ '\n') (notReturn : c ≠ '\r') :
    (∃ line ∈ function.commandLines, c ∈ line.toList) ↔ c ∈ (function.command.getD "").toList := by
  rw [← Text.mem_rdropWhile_iff notFeed, ← Text.exists_mem_lines_iff notFeed notReturn, commandLines_eq]
  simp

/-- A function has no body where it has no directory and its command is at most line feeds. -/
theorem isEmpty_iff :
    function.isEmpty = true ↔
      function.workingDirectory = none ∧ ∀ c ∈ (function.command.getD "").toList, c = '\n' := by
  rw [isEmpty, List.isEmpty_iff, bodyLines_eq_nil_iff, plainCommand, Text.plainEnds_eq_nil_iff,
    List.rdropWhile_eq_nil_iff]
  simp

theorem directoryLines_usable_iff :
    (∃ line ∈ function.directoryLines, ∃ c ∈ line.toList, Text.isWhiteSpace c = false) ↔
      function.workingDirectory ≠ none := by
  have letter : Text.isWhiteSpace 'c' = false := by decide
  cases given : function.workingDirectory with
  | none => simp [directoryLines, given]
  | some directory => simp [directoryLines, given, letter]

/-- Cutting a command into lines takes only white space away. -/
theorem commandLines_usable_iff :
    (∃ line ∈ function.commandLines, ∃ c ∈ line.toList, Text.isWhiteSpace c = false) ↔
      ∃ c ∈ (function.command.getD "").toList, Text.isWhiteSpace c = false := by
  have ends : ∀ c, Text.isWhiteSpace c = false → c ≠ '\n' ∧ c ≠ '\r' := by
    rintro c notSpace
    constructor <;> rintro rfl <;> exact absurd notSpace (by decide)
  constructor
  · rintro ⟨line, among, c, inLine, notSpace⟩
    obtain ⟨notFeed, notReturn⟩ := ends c notSpace
    exact ⟨c, (exists_mem_commandLines_iff notFeed notReturn).mp ⟨line, among, inLine⟩, notSpace⟩
  · rintro ⟨c, inCommand, notSpace⟩
    obtain ⟨notFeed, notReturn⟩ := ends c notSpace
    obtain ⟨line, among, inLine⟩ := (exists_mem_commandLines_iff notFeed notReturn).mpr inCommand
    exact ⟨line, among, c, inLine, notSpace⟩

/-- A body is usable where there is a directory to change to or a command that is not just white space. -/
theorem block_usable_iff :
    function.block.Usable ↔
      function.workingDirectory ≠ none ∨ ∃ c ∈ (function.command.getD "").toList, Text.isWhiteSpace c = false := by
  rw [← directoryLines_usable_iff, ← commandLines_usable_iff]
  simp only [Script.Block.Usable, block, bodyLines, List.mem_append, or_and_right, exists_or]

/-- The blocks that are written though they are not usable are those of blank bodies. -/
theorem blankBody_iff_written_unusable :
    BlankBody function.workingDirectory function.command ↔ function.isEmpty = false ∧ ¬ function.block.Usable := by
  rw [blankBody_iff, ← Bool.not_eq_true, isEmpty_iff, block_usable_iff]
  constructor
  · rintro ⟨noDirectory, whiteSpace, c, inCommand, notFeed⟩
    refine ⟨fun ⟨_, feeds⟩ => notFeed (feeds c inCommand), ?_⟩
    rintro (directory | ⟨d, mem, notSpace⟩)
    · exact directory noDirectory
    · simp [whiteSpace d mem] at notSpace
  · rintro ⟨someBody, unusable⟩
    obtain ⟨noChange, noWord⟩ := not_or.mp unusable
    have noDirectory : function.workingDirectory = none := Classical.not_not.mp noChange
    have notFeeds : ¬ ∀ c ∈ (function.command.getD "").toList, c = '\n' :=
      fun feeds => someBody ⟨noDirectory, feeds⟩
    exact ⟨noDirectory, by simpa using noWord, by simpa using notFeeds⟩

end Function

/-- All blocks that are written of functions are usable exactly if none of the functions has a blank body. -/
theorem Script.blocks_usable_iff {functions : List Function} :
    (∀ block ∈ Script.blocks functions, block.Usable) ↔
      ∀ function ∈ functions, ¬ BlankBody function.workingDirectory function.command := by
  rw [forall_mem_blocks_iff]
  refine forall₂_congr fun function _ => ?_
  rw [Function.blankBody_iff_written_unusable, not_and, Classical.not_not]

/-!
### Compiled documents
-/

/-- What is written of a document that compiles is the texts of its blocks with empty lines between them. Each block
has a line that is not just white space, exactly if no location of the expanded tree is without a directory and has a
command of white space that is more than line feeds. -/
theorem compile_blocks_usable_iff {document : Document} {functions : List Function}
    (compiles : (compile document).result = .ok functions) :
    (Script.write {} functions).sink.bytes =
        utf8Bytes ("\n".intercalate ((Script.blocks functions).map Script.Block.text)) ∧
      (Script.write {} functions).complete = true ∧
      ((∀ block ∈ Script.blocks functions, block.Usable) ↔
        ∀ location ∈ document.units.expand.locations,
          ¬ BlankBody (location.trail.directory document.units.attributes.directory) location.node.command?) := by
  obtain ⟨bytes, complete⟩ := Script.write_unlimited functions
  refine ⟨?_, complete, ?_⟩
  · rw [bytes, Script.text_eq_blocks]
  · obtain ⟨separator, -, -, rfl⟩ := compile_eq_ok_iff.mp compiles
    rw [Script.blocks_usable_iff, Document.functions_processed, List.forall_mem_map]
    rfl

/-- Commands of white space: line feeds alone, in front of a word, and under a directory. -/
def Document.spaced : Document where
  units :=
    { children :=
        .cons "feeds" (.command "\n\n") <|
        .cons "late" (.command " \r\n\tmake\n") <|
        .cons "under" (.group { directory := some "x" } (.cons "blank" (.command "\t") .nil)) .nil }

/-- The feeds are left out, and the other commands have a line that is more than white space. -/
theorem compile_blocks_usable_spaced :
    (compile .spaced).result =
        .ok [⟨"feeds", none, some "\n\n"⟩, ⟨"late", none, some " \r\n\tmake\n"⟩, ⟨"under", some "x", none⟩,
          ⟨"under.blank", some "x", some "\t"⟩] ∧
      ∀ block ∈ [Script.Block.mk "late" [" ", "\tmake"], ⟨"under", ["cd x"]⟩, ⟨"under.blank", ["cd x", "\t"]⟩],
        block.Usable := by
  have compiles : (compile .spaced).result =
      .ok [⟨"feeds", none, some "\n\n"⟩, ⟨"late", none, some " \r\n\tmake\n"⟩, ⟨"under", some "x", none⟩,
        ⟨"under.blank", some "x", some "\t"⟩] := by decide
  obtain ⟨-, -, usable⟩ := compile_blocks_usable_iff compiles
  exact ⟨compiles, usable.mpr (by decide)⟩

/-- A command of one blank is written as a body of one line without anything on it. -/
theorem compile_writes_blank_body :
    ∃ document functions,
      (Document.ofValue (.mapping (.cons (.string "units")
          (.mapping (.cons (.string "a") (.string " ") .nil)) .nil))).result = .ok document ∧
        (compile document).result = .ok functions ∧
        Script.blocks functions = [⟨"a", [" "]⟩] ∧
        (Script.write {} functions).sink.bytes = utf8Bytes "a() \x7b\n\t \n\x7d\n" ∧
        ¬ Script.Block.Usable ⟨"a", [" "]⟩ := by
  refine ⟨{ units := { children := .cons "a" (.command " ") .nil } }, [⟨"a", none, some " "⟩], ?_, ?_, ?_, ?_, ?_⟩
  all_goals decide

end ShellUnits
