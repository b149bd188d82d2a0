import ShellUnits.Proofs.Lines
import ShellUnits.Reference

/-!
Which texts are references, and to what ids.

Reading a text as a reference and writing a reference as a text undo one another. Not all lists of ids take
part: an id that is read never holds a dot, white space or a parenthesis, and a single empty id would be
written as no ids at all. These are the only exceptions.

Main statements: `parseReference?_eq_some_iff`, `parseReference?_isSome_iff`, `parseReference?_exact`.
-/

namespace ShellUnits

open Text

/-!
### Ids that a text can hold
-/

/-- A text that can stand between the dots of a reference. -/
def IsId (id : String) : Prop :=
  ∀ c ∈ id.toList, c ≠ '.' ∧ isWhiteSpace c = false ∧ c ≠ '(' ∧ c ≠ ')'

instance (id : String) : Decidable (IsId id) :=
  inferInstanceAs (Decidable (∀ c ∈ id.toList, _))

/-- Ids that some text is a reference to: none, or ids that can stand between dots and are not the empty id
alone. -/
def AreIds (ids : List String) : Prop :=
  ids = [] ∨ ((∀ id ∈ ids, IsId id) ∧ ids ≠ [""])

instance (ids : List String) : Decidable (AreIds ids) :=
  inferInstanceAs (Decidable (_ ∨ _))

theorem isReferenceChar_iff {c : Char} :
    isReferenceChar c = true ↔ isWhiteSpace c = false ∧ c ≠ '(' ∧ c ≠ ')' := by
  simp [isReferenceChar, and_assoc]

/-!
### The text between the parentheses
-/

/-- What stands between the parentheses of a reference to these ids. -/
def joinIds (ids : List String) : List Char :=
  ['.'].intercalate (ids.map String.toList)

theorem toList_formatReference (ids : List String) :
    (formatReference ids).toList = '$' :: '(' :: (joinIds ids ++ [')']) := by
  simp [formatReference, joinIds, String.toList_intercalate]

/-- Only no ids at all and the empty id alone leave nothing between the parentheses. -/
theorem joinIds_eq_nil_iff {ids : List String} : joinIds ids = [] ↔ ids = [] ∨ ids = [""] := by
  cases ids with
  | nil => simp [joinIds]
  | cons id others =>
      cases others with
      | nil => simp [joinIds]
      | cons next more => simp [joinIds, List.intercalate_cons_cons]

/-- The characters between the parentheses are those of the ids and the dots between them. -/
theorem mem_joinIds {c : Char} {ids : List String} (mem : c ∈ joinIds ids) :
    c = '.' ∨ ∃ id ∈ ids, c ∈ id.toList := by
  rcases Text.eq_or_mem_of_mem_intercalate mem with dot | ⟨text, among, inText⟩
  · exact .inl dot
  · obtain ⟨id, mem, rfl⟩ := List.mem_map.mp among
    exact .inr ⟨id, mem, inText⟩

/-- Ids that can stand between dots are found again by cutting at the dots. -/
theorem pieces_joinIds {ids : List String} (areIds : ∀ id ∈ ids, IsId id) (some : ids ≠ []) :
    (pieces '.' (joinIds ids)).map String.ofList = ids := by
  apply Text.pieces_intercalate _ some
  intro id mem dot
  exact (areIds id mem _ dot).1 rfl

/-- Joining the pieces of a text gives the text. -/
theorem joinIds_pieces (inner : List Char) : joinIds ((pieces '.' inner).map String.ofList) = inner := by
  have texts : ((pieces '.' inner).map String.ofList).map String.toList = pieces '.' inner := by simp
  rw [joinIds, texts, Text.intercalate_pieces]

/-- Between the parentheses, exactly the joined ids are read. -/
theorem parseIds?_eq_some_iff {inner : List Char} {ids : List String} :
    parseIds? inner = some ids ↔ AreIds ids ∧ inner = joinIds ids := by
  unfold parseIds?
  constructor
  · intro reads
    split at reads
    · rename_i empty
      obtain rfl := Option.some.inj reads
      exact ⟨.inl rfl, empty⟩
    · rename_i notEmpty
      split at reads
      · rename_i allowed
        obtain rfl := Option.some.inj reads
        have joined := joinIds_pieces inner
        refine ⟨.inr ⟨?_, ?_⟩, joined.symm⟩
        · intro id mem c inId
          obtain ⟨piece, cut, rfl⟩ := List.mem_map.mp mem
          rw [String.toList_ofList] at inId
          obtain ⟨inInner, notDot⟩ := Text.mem_of_mem_pieces cut inId
          exact ⟨notDot, isReferenceChar_iff.mp (List.all_eq_true.mp allowed c inInner)⟩
        · intro single
          rw [joinIds_eq_nil_iff.mpr (.inr single)] at joined
          exact notEmpty joined.symm
      · simp at reads
  · rintro ⟨rfl | ⟨areIds, notSingle⟩, rfl⟩
    · rfl
    · by_cases noIds : ids = []
      · rw [noIds]; rfl
      · have notEmpty : joinIds ids ≠ [] := by
          intro empty
          rcases joinIds_eq_nil_iff.mp empty with none | single
          · exact noIds none
          · exact notSingle single
        have allowed : (joinIds ids).all isReferenceChar = true := by
          rw [List.all_eq_true]
          intro c mem
          rcases mem_joinIds mem with rfl | ⟨id, among, inId⟩
          · decide
          · exact isReferenceChar_iff.mpr (areIds id among c inId).2
        rw [if_neg notEmpty, if_pos allowed, pieces_joinIds areIds noIds]

/-- Between the parentheses some ids are read exactly where no character is white space or a parenthesis. -/
theorem parseIds?_isSome_iff {inner : List Char} :
    (parseIds? inner).isSome = true ↔ ∀ c ∈ inner, isWhiteSpace c = false ∧ c ≠ '(' ∧ c ≠ ')' := by
  by_cases empty : inner = []
  · simp [parseIds?, empty]
  · have allowed_iff : inner.all isReferenceChar = true ↔
        ∀ c ∈ inner, isWhiteSpace c = false ∧ c ≠ '(' ∧ c ≠ ')' := by
      simp only [List.all_eq_true, isReferenceChar_iff]
    rw [← allowed_iff]
    by_cases allowed : inner.all isReferenceChar = true
    · simp [parseIds?, empty, allowed]
    · simp [parseIds?, empty, allowed]

/-!
### The whole text
-/

/-- A reference is a dollar sign and what the parentheses hold, and nothing else. -/
theorem parseReference?_eq_some {text : String} {ids : List String} :
    parseReference? text = some ids ↔
      ∃ inner, text.toList = '$' :: '(' :: (inner ++ [')']) ∧ parseIds? inner = some ids := by
  unfold parseReference?
  constructor
  · intro reads
    split at reads
    · rename_i rest opened
      split at reads
      · rename_i closed
        obtain ⟨inner, rfl⟩ := List.getLast?_eq_some_iff.mp closed
        rw [List.dropLast_concat] at reads
        exact ⟨inner, opened, reads⟩
      · simp at reads
    · simp at reads
  · rintro ⟨inner, shape, reads⟩
    simp only [shape, List.getLast?_concat, if_true, List.dropLast_concat, reads]

/-- A text is a reference to these ids exactly when it is the text of that reference and some text can hold the
ids. -/
theorem parseReference?_eq_some_iff {text : String} {ids : List String} :
    parseReference? text = some ids ↔ AreIds ids ∧ text = formatReference ids := by
  simp only [parseReference?_eq_some, parseIds?_eq_some_iff, String.ext_iff, toList_formatReference]
  constructor
  · rintro ⟨inner, shape, areIds, rfl⟩
    exact ⟨areIds, shape⟩
  · rintro ⟨areIds, shape⟩
    exact ⟨joinIds ids, shape, areIds, rfl⟩

/-- A text is a reference exactly when it is a dollar sign and a pair of parentheses, with neither white space nor
parentheses between them. -/
theorem parseReference?_isSome_iff {text : String} :
    (parseReference? text).isSome = true ↔
      ∃ inner : String, text = "$(" ++ inner ++ ")" ∧
        ∀ c ∈ inner.toList, isWhiteSpace c = false ∧ c ≠ '(' ∧ c ≠ ')' := by
  constructor
  · intro isReference
    obtain ⟨ids, reads⟩ := Option.isSome_iff_exists.mp isReference
    obtain ⟨inner, shape, readsInner⟩ := parseReference?_eq_some.mp reads
    refine ⟨String.ofList inner, ?_, ?_⟩
    · rw [String.ext_iff, shape]
      simp
    · rw [String.toList_ofList]
      exact parseIds?_isSome_iff.mp (Option.isSome_iff_exists.mpr ⟨ids, readsInner⟩)
  · rintro ⟨inner, rfl, allowed⟩
    obtain ⟨ids, readsInner⟩ := Option.isSome_iff_exists.mp (parseIds?_isSome_iff.mpr allowed)
    have shape : ("$(" ++ inner ++ ")").toList = '$' :: '(' :: (inner.toList ++ [')']) := by simp
    exact Option.isSome_iff_exists.mpr ⟨ids, parseReference?_eq_some.mpr ⟨inner.toList, shape, readsInner⟩⟩

/-- Exactly the texts of this form are references, writing what has been read gives the text again, and reading what
has been written gives the ids again exactly for ids that a text can hold. -/
theorem parseReference?_exact :
    (∀ text : String, (parseReference? text).isSome = true ↔
      ∃ inner : String, text = "$(" ++ inner ++ ")" ∧
        ∀ c ∈ inner.toList, isWhiteSpace c = false ∧ c ≠ '(' ∧ c ≠ ')') ∧
      (∀ text ids, parseReference? text = some ids → formatReference ids = text) ∧
      ∀ ids, parseReference? (formatReference ids) = some ids ↔ AreIds ids := by
  refine ⟨fun text => parseReference?_isSome_iff, ?_, ?_⟩
  · intro text ids reads
    exact (parseReference?_eq_some_iff.mp reads).2.symm
  · intro ids
    rw [parseReference?_eq_some_iff]
    exact and_iff_left rfl

/-- The single empty id is written as no ids are, and read back as none. -/
example : parseReference? (formatReference [""]) = some [] := by decide

end ShellUnits
