import Mathlib.Data.List.DropRight
import ShellUnits.Text.Lines

/-!
Pieces and lines of a text.

Joining pieces undoes cutting, and cutting undoes joining pieces that hold no separator. Lines are pieces
between line feeds that have lost a carriage return at their end, so joining lines gives the text without
carriage returns before line feeds.

Main statements: `Text.pieces_eq_splitOn`, `Text.mem_of_mem_pieces`, `Text.pieces_intercalate`,
`Text.pieces_flatMap`, `Text.intercalate_lines`, `Text.dropTrailing_eq_rdropWhile`.
-/

namespace ShellUnits.Text

/-!
### Pieces
-/

/-- Cutting into pieces is the list operation of that kind, for which joining is known to undo it. -/
theorem pieces_eq_splitOn (sep : Char) (text : List Char) : pieces sep text = text.splitOn sep := by
  induction text with
  | nil => rfl
  | cons c rest ih =>
      rw [List.splitOn, List.splitOnP_cons_eq_if_modifyHead, ← List.splitOn, ← ih]
      by_cases isSep : c = sep
      · simp [pieces, isSep]
      · cases cut : pieces sep rest with
        | nil =>
            rw [ih] at cut
            exact absurd cut (List.splitOnP_ne_nil _ rest)
        | cons piece more => simp [pieces, isSep, cut]

/-- The characters of a piece are those of the text, without the separator. -/
theorem mem_of_mem_pieces {sep c : Char} {text piece : List Char} (cut : piece ∈ pieces sep text)
    (mem : c ∈ piece) : c ∈ text ∧ c ≠ sep := by
  induction text generalizing piece with
  | nil =>
      simp only [pieces, List.mem_singleton] at cut
      simp [cut] at mem
  | cons first rest ih =>
      simp only [pieces] at cut
      split at cut
      · rcases List.mem_cons.mp cut with rfl | later
        · simp at mem
        · obtain ⟨inRest, notSep⟩ := ih later mem
          exact ⟨List.mem_cons_of_mem first inRest, notSep⟩
      · rename_i notSep
        split at cut
        · simp only [List.mem_singleton] at cut
          simp only [cut, List.mem_singleton] at mem
          exact ⟨by simp [mem], mem ▸ notSep⟩
        · rename_i head more restCut
          rcases List.mem_cons.mp cut with rfl | later
          · rcases List.mem_cons.mp mem with rfl | inHead
            · exact ⟨List.mem_cons_self, notSep⟩
            · obtain ⟨inRest, notSep⟩ := ih (by rw [restCut]; exact List.mem_cons_self) inHead
              exact ⟨List.mem_cons_of_mem first inRest, notSep⟩
          · obtain ⟨inRest, notSep⟩ := ih (by rw [restCut]; exact List.mem_cons_of_mem head later) mem
            exact ⟨List.mem_cons_of_mem first inRest, notSep⟩

/-- Joined with nothing after the last separator, each line is ended by one. -/
theorem intercalate_concat_nil (sep : Char) (lines : List (List Char)) :
    [sep].intercalate (lines ++ [[]]) = lines.flatMap (· ++ [sep]) := by
  induction lines with
  | nil => simp
  | cons line rest ih => rw [List.cons_append, List.intercalate_cons_of_ne_nil (by simp), ih, List.flatMap_cons]

theorem intercalate_pieces (sep : Char) (text : List Char) : [sep].intercalate (pieces sep text) = text := by
  rw [pieces_eq_splitOn, List.intercalate_splitOn]

/-- The characters of joined texts are those of the texts and the separator. -/
theorem eq_or_mem_of_mem_intercalate {sep c : Char} {texts : List (List Char)} (mem : c ∈ [sep].intercalate texts) :
    c = sep ∨ ∃ text ∈ texts, c ∈ text := by
  induction texts with
  | nil => simp at mem
  | cons text rest ih =>
      cases rest with
      | nil =>
          rw [List.intercalate_singleton] at mem
          exact .inr ⟨text, List.mem_singleton_self text, mem⟩
      | cons next more =>
          rw [List.intercalate_cons_cons, List.append_assoc, List.mem_append, List.singleton_append,
            List.mem_cons] at mem
          rcases mem with inText | isSep | later
          · exact .inr ⟨text, List.mem_cons_self, inText⟩
          · exact .inl isSep
          · exact (ih later).imp_right fun ⟨other, among, inOther⟩ =>
              ⟨other, List.mem_cons_of_mem text among, inOther⟩

/-- Texts without the separator are found again as pieces of the text that joining them gives. -/
theorem pieces_intercalate {sep : Char} {texts : List String} (free : ∀ text ∈ texts, sep ∉ text.toList)
    (notEmpty : texts ≠ []) :
    (pieces sep ([sep].intercalate (texts.map String.toList))).map String.ofList = texts := by
  have freeLists : ∀ text ∈ texts.map String.toList, sep ∉ text := by
    intro text mem
    obtain ⟨original, among, rfl⟩ := List.mem_map.mp mem
    exact free original among
  rw [pieces_eq_splitOn, List.splitOn_intercalate sep freeLists (by simpa using notEmpty)]
  simp

/-- Lines that are each ended by the separator are found again as pieces, with nothing after the last one. -/
theorem pieces_flatMap {sep : Char} {lines : List (List Char)} (oneLine : ∀ line ∈ lines, sep ∉ line) :
    pieces sep (lines.flatMap (· ++ [sep])) = lines ++ [[]] := by
  rw [← intercalate_concat_nil, pieces_eq_splitOn]
  apply List.splitOn_intercalate
  · intro line mem
    rcases List.mem_append.mp mem with among | last
    · exact oneLine line among
    · simp [List.mem_singleton.mp last]
  · simp

/-- The last piece is empty only if the text is empty or ends in a separator. -/
theorem getLast?_pieces_ne {sep : Char} {text : List Char} (notEmpty : text ≠ [])
    (ended : text.getLast? ≠ some sep) : (pieces sep text).getLast? ≠ some [] := by
  intro empty
  obtain ⟨before, split⟩ := List.getLast?_eq_some_iff.mp empty
  have joined := intercalate_pieces sep text
  rw [split, intercalate_concat_nil] at joined
  rcases List.eq_nil_or_concat' before with rfl | ⟨more, last, rfl⟩
  · exact notEmpty joined.symm
  · rw [← joined] at ended
    simp at ended

/-!
### Carriage returns before line feeds
-/

/-- The text with every carriage return directly before a line feed taken out. -/
def plainEnds : List Char → List Char
  | '\r' :: '\n' :: rest => '\n' :: plainEnds rest
  | c :: rest => c :: plainEnds rest
  | [] => []

theorem plainEnds_of_not_mem {text : List Char} (oneLine : '\n' ∉ text) : plainEnds text = text := by
  fun_induction plainEnds text with
  | case1 rest ih => simp at oneLine
  | case2 c rest notBoth ih =>
      simp only [List.mem_cons, not_or] at oneLine
      rw [ih oneLine.2]
  | case3 => rfl

theorem plainEnds_eq_nil_iff {text : List Char} : plainEnds text = [] ↔ text = [] := by
  fun_cases plainEnds text <;> simp

/-- What stands before the first line feed loses a carriage return at its end. -/
theorem plainEnds_append {line : List Char} (oneLine : '\n' ∉ line) (rest : List Char) :
    plainEnds (line ++ '\n' :: rest) = dropReturn line ++ '\n' :: plainEnds rest := by
  induction line with
  | nil => simp [plainEnds, dropReturn]
  | cons c more ih =>
      simp only [List.mem_cons, not_or] at oneLine
      cases more with
      | nil => by_cases isReturn : c = '\r' <;> simp [plainEnds, dropReturn, isReturn]
      | cons d more =>
          have next : ¬ (d = '\n') := fun same => oneLine.2 (same ▸ List.mem_cons_self)
          have goesOn : plainEnds (c :: d :: more ++ '\n' :: rest) =
              c :: plainEnds (d :: more ++ '\n' :: rest) := by
            simp only [List.cons_append]
            rw [plainEnds]
            intro tail _ same
            exact next (List.cons.inj same).1
          rw [goesOn, ih oneLine.2]
          rfl

theorem mem_dropReturn_iff {c : Char} (notReturn : c ≠ '\r') {line : List Char} : c ∈ dropReturn line ↔ c ∈ line := by
  fun_induction dropReturn line with
  | case1 => exact Iff.rfl
  | case2 => simp [notReturn]
  | case3 => exact Iff.rfl
  | case4 first more _ ih => rw [List.mem_cons, ih, List.mem_cons]

/-!
### Lines
-/

/-- There are no lines only where there is nothing to end one and nothing after the last end. -/
theorem closeLines_eq_nil_iff {pieces : List (List Char)} :
    closeLines pieces = [] ↔ pieces = [] ∨ pieces = [[]] := by
  cases pieces with
  | nil => simp [closeLines]
  | cons piece rest =>
      cases rest with
      | nil => by_cases empty : piece = [] <;> simp [closeLines, empty]
      | cons next more => simp [closeLines]

/-- A character that is no carriage return is in a line exactly if it is in a piece. -/
theorem exists_mem_closeLines_iff {c : Char} (notReturn : c ≠ '\r') {pieces : List (List Char)} :
    (∃ line ∈ closeLines pieces, c ∈ line) ↔ ∃ piece ∈ pieces, c ∈ piece := by
  fun_induction closeLines pieces with
  | case1 => exact Iff.rfl
  | case2 => simp
  | case3 last notEmpty => exact Iff.rfl
  | case4 piece rest notLast ih =>
      simp only [List.exists_mem_cons_iff, ih, mem_dropReturn_iff notReturn]

/-- Lines joined by line feeds are the pieces joined, but for carriage returns before line feeds. -/
theorem intercalate_closeLines {pieces : List (List Char)} (oneLine : ∀ piece ∈ pieces, '\n' ∉ piece)
    (ended : pieces.getLast? ≠ some []) :
    ['\n'].intercalate (closeLines pieces) = plainEnds (['\n'].intercalate pieces) := by
  induction pieces with
  | nil => rfl
  | cons piece rest ih =>
      obtain ⟨first, others⟩ := List.forall_mem_cons.mp oneLine
      cases rest with
      | nil =>
          have notEmpty : piece ≠ [] := by simpa using ended
          simp [closeLines, notEmpty, plainEnds_of_not_mem first]
      | cons next more =>
          have endedToo : (next :: more).getLast? ≠ some [] := by simpa using ended
          have someLines : closeLines (next :: more) ≠ [] := by
            rw [ne_eq, closeLines_eq_nil_iff]
            rintro (none | single)
            · simp at none
            · simp [single] at endedToo
          calc ['\n'].intercalate (closeLines (piece :: next :: more))
            _ = dropReturn piece ++ ['\n'] ++ ['\n'].intercalate (closeLines (next :: more)) :=
                List.intercalate_cons_of_ne_nil someLines
            _ = dropReturn piece ++ '\n' :: plainEnds (['\n'].intercalate (next :: more)) := by
                rw [ih others endedToo, List.append_assoc, List.singleton_append]
            _ = plainEnds (['\n'].intercalate (piece :: next :: more)) := by
                rw [← plainEnds_append first, List.intercalate_cons_cons, List.append_assoc,
                  List.singleton_append]

theorem lines_eq_nil_iff {text : List Char} : lines text = [] ↔ text = [] := by
  constructor
  · intro none
    rw [← intercalate_pieces '\n' text]
    rcases closeLines_eq_nil_iff.mp none with cut | cut
    · rw [cut, List.intercalate_nil]
    · rw [cut, List.intercalate_singleton]
  · rintro rfl
    rfl

/-- No line holds a line feed. -/
theorem not_mem_of_mem_lines {text line : List Char} (mem : line ∈ lines text) : '\n' ∉ line := by
  intro inLine
  obtain ⟨piece, cut, inPiece⟩ := (exists_mem_closeLines_iff (by decide)).mp ⟨line, mem, inLine⟩
  exact (mem_of_mem_pieces cut inPiece).2 rfl

/-- A character that ends no line is in a line exactly if it is in the text. -/
theorem exists_mem_lines_iff {c : Char} (notFeed : c ≠ '\n') (notReturn : c ≠ '\r') {text : List Char} :
    (∃ line ∈ lines text, c ∈ line) ↔ c ∈ text := by
  rw [lines, exists_mem_closeLines_iff notReturn]
  constructor
  · rintro ⟨piece, cut, inPiece⟩
    exact (mem_of_mem_pieces cut inPiece).1
  · intro inText
    rw [← intercalate_pieces '\n' text] at inText
    exact (eq_or_mem_of_mem_intercalate inText).resolve_left notFeed

/-- The lines of a text that does not end in a line feed, joined by line feeds, are the text without carriage
returns before line feeds. -/
theorem intercalate_lines {text : List Char} (ended : text.getLast? ≠ some '\n') :
    ['\n'].intercalate (lines text) = plainEnds text := by
  by_cases empty : text = []
  · rw [empty]
    rfl
  · rw [lines, intercalate_closeLines, intercalate_pieces]
    · intro piece cut inPiece
      exact (mem_of_mem_pieces cut inPiece).2 rfl
    · exact getLast?_pieces_ne empty ended

/-!
### Characters dropped at the end
-/

theorem dropTrailing_concat (p : Char → Bool) (text : List Char) (c : Char) :
    dropTrailing p (text ++ [c]) = if p c then dropTrailing p text else text ++ [c] := by
  induction text with
  | nil => rfl
  | cons first rest ih =>
      rw [List.cons_append, dropTrailing, ih]
      by_cases drops : p c = true
      · rw [if_pos drops, if_pos drops, dropTrailing]
      · rw [if_neg drops, if_neg drops]
        cases rest <;> rfl

/-- Dropping at the end is the list operation of that kind. -/
theorem dropTrailing_eq_rdropWhile (p : Char → Bool) (text : List Char) :
    dropTrailing p text = text.rdropWhile p := by
  induction text using List.reverseRecOn with
  | nil => rfl
  | append_singleton text c ih => rw [dropTrailing_concat, List.rdropWhile_concat, ih]

/-- Dropping reaches the front part only where nothing is left of the back part. -/
theorem rdropWhile_append (p : Char → Bool) (front back : List Char) :
    (front ++ back).rdropWhile p =
      if back.rdropWhile p = [] then front.rdropWhile p else front ++ back.rdropWhile p := by
  induction back using List.reverseRecOn with
  | nil => simp
  | append_singleton back c ih =>
      rw [← List.append_assoc]
      by_cases drops : p c = true
      · rw [List.rdropWhile_concat_pos _ _ _ drops, List.rdropWhile_concat_pos _ _ _ drops, ih]
      · rw [List.rdropWhile_concat_neg _ _ _ drops, List.rdropWhile_concat_neg _ _ _ drops, if_neg (by simp),
          List.append_assoc]

/-- Dropping one character at the end takes no other one away. -/
theorem mem_rdropWhile_iff {c dropped : Char} (kept : c ≠ dropped) {text : List Char} :
    c ∈ text.rdropWhile (· == dropped) ↔ c ∈ text := by
  constructor
  · exact fun left => (List.rdropWhile_prefix (· == dropped) text).subset left
  · intro inText
    have split : text.rdropWhile (· == dropped) ++ text.rtakeWhile (· == dropped) = text :=
      List.rdropWhile_append_rtakeWhile
    rw [← split, List.mem_append] at inText
    refine inText.resolve_right fun inDropped => kept ?_
    exact beq_iff_eq.mp (@List.mem_rtakeWhile_imp Char (· == dropped) text c inDropped)

theorem getLast?_rdropWhile_ne (c : Char) (text : List Char) :
    (text.rdropWhile (· == c)).getLast? ≠ some c := by
  intro last
  obtain ⟨before, split⟩ := List.getLast?_eq_some_iff.mp last
  have notEmpty : text.rdropWhile (· == c) ≠ [] := by simp [split]
  have kept := List.rdropWhile_last_not (· == c) text notEmpty
  simp [split] at kept

end ShellUnits.Text
