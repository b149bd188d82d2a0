import Mathlib.Data.List.Basic
import ShellUnits.Function.Script

/-!
What a sink holds after functions have been written into it.

Functions are written in many small pieces, and writing stops at the first piece that does not fit. The sink
shows nothing of that: it ends up as if the whole text of the script had been put into it at once. In
particular a sink without a limit holds that text, and a sink with a limit holds the front of it.

Main statements: `Sink.putAll_eq_put_join`, `Script.write_eq_put_text`, `Script.write_unlimited`,
`Script.write_limited`.
-/

namespace ShellUnits

@[simp] theorem utf8Bytes_empty : utf8Bytes "" = [] := rfl

@[simp] theorem utf8Bytes_append (first second : String) :
    utf8Bytes (first ++ second) = utf8Bytes first ++ utf8Bytes second := by
  simp [utf8Bytes, String.toByteArray_append, ByteArray.data_append]

/-!
### Texts put into a sink
-/

namespace Sink

@[simp] theorem put_empty (sink : Sink) : sink.put "" = (sink, true) := by
  simp [put]

/-- A sink without a limit takes every text as a whole. -/
theorem put_unlimited {sink : Sink} (unlimited : sink.capacity = none) (text : String) :
    sink.put text = ({ sink with bytes := sink.bytes ++ utf8Bytes text }, true) := by
  simp only [put, room, unlimited, List.take_length, beq_self_eq_true]

/-- A sink with a limit keeps the front of what it is given, and refuses exactly what goes beyond the limit. -/
theorem put_limited {sink : Sink} {capacity : Nat} (limited : sink.capacity = some capacity)
    (within : sink.bytes.length ≤ capacity) (text : String) :
    (sink.put text).1.bytes = (sink.bytes ++ utf8Bytes text).take capacity ∧
      ((sink.put text).2 = false ↔ capacity < (sink.bytes ++ utf8Bytes text).length) := by
  have room : sink.room (utf8Bytes text).length = min (utf8Bytes text).length (capacity - sink.bytes.length) := by
    simp only [Sink.room, limited]
  constructor
  · have stored : (utf8Bytes text).take (min (utf8Bytes text).length (capacity - sink.bytes.length)) =
        (utf8Bytes text).take (capacity - sink.bytes.length) := by
      rw [Nat.min_comm, ← List.take_take, List.take_length]
    simp only [put, room]
    rw [stored, List.take_append, List.take_of_length_le within]
  · simp only [put, room, beq_eq_false_iff_ne, List.length_take, List.length_append]
    omega

theorem room_le (sink : Sink) (wanted : Nat) : sink.room wanted ≤ wanted := by
  unfold room
  split
  · exact Nat.le_refl wanted
  · exact Nat.min_le_left _ _

section Append

variable {sink : Sink} {first : String}

/-- The room for more, once a text has gone in as a whole. -/
theorem room_add_of_fits (fits : sink.room (utf8Bytes first).length = (utf8Bytes first).length) (more : Nat) :
    sink.room ((utf8Bytes first).length + more) =
      (utf8Bytes first).length + ({ sink with bytes := sink.bytes ++ utf8Bytes first } : Sink).room more := by
  unfold room at fits ⊢
  cases limited : sink.capacity with
  | none => simp only
  | some capacity =>
      simp only [limited, List.length_append] at fits ⊢
      omega

/-- There is no room for more where a text has not gone in as a whole. -/
theorem room_add_of_full (full : sink.room (utf8Bytes first).length ≠ (utf8Bytes first).length) (more : Nat) :
    sink.room ((utf8Bytes first).length + more) = sink.room (utf8Bytes first).length := by
  unfold room at full ⊢
  cases limited : sink.capacity with
  | none => simp [limited] at full
  | some capacity =>
      simp only [limited] at full ⊢
      omega

theorem put_append_of_fits (fits : sink.room (utf8Bytes first).length = (utf8Bytes first).length)
    (second : String) :
    (sink.put first).2 = true ∧ sink.put (first ++ second) = (sink.put first).1.put second := by
  simp only [put, fits, List.take_length, beq_self_eq_true, utf8Bytes_append, List.length_append,
    room_add_of_fits fits, List.take_length_add_append, List.append_assoc, true_and, Prod.mk.injEq]
  rw [Bool.eq_iff_iff, beq_iff_eq, beq_iff_eq, Nat.add_left_cancel_iff]

theorem put_append_of_full (full : sink.room (utf8Bytes first).length ≠ (utf8Bytes first).length)
    (second : String) :
    (sink.put first).2 = false ∧ sink.put (first ++ second) = sink.put first := by
  have less : sink.room (utf8Bytes first).length < (utf8Bytes first).length :=
    Nat.lt_of_le_of_ne (room_le sink _) full
  have short : ∀ more, (sink.room (utf8Bytes first).length == (utf8Bytes first).length + more) = false := by
    intro more
    rw [beq_eq_false_iff_ne]
    omega
  simp only [put, utf8Bytes_append, List.length_append, room_add_of_full full,
    List.take_append_of_le_length (Nat.le_of_lt less), List.length_take, Nat.min_eq_left (room_le sink _), short,
    true_and, Prod.mk.injEq]
  exact ⟨short 0, (short 0).symm⟩

end Append

/-- Two texts put in one after the other are the joined text put in at once. -/
theorem put_append (sink : Sink) (first second : String) :
    sink.put (first ++ second) =
      if (sink.put first).2 then (sink.put first).1.put second else sink.put first := by
  by_cases fits : sink.room (utf8Bytes first).length = (utf8Bytes first).length
  · obtain ⟨complete, append⟩ := put_append_of_fits fits second
    rw [if_pos complete, append]
  · obtain ⟨incomplete, append⟩ := put_append_of_full fits second
    rw [if_neg (Bool.eq_false_iff.mp incomplete), append]

/-- In how many pieces a text is put in makes no difference. -/
theorem putAll_eq_put_join (sink : Sink) (texts : List String) :
    sink.putAll texts = sink.put (String.join texts) := by
  induction texts generalizing sink with
  | nil => exact (put_empty sink).symm
  | cons text rest ih =>
      rw [String.join_cons, put_append, putAll]
      obtain ⟨next, fitted⟩ := sink.put text
      cases fitted with
      | true => exact ih next
      | false => rfl

end Sink

/-!
### Functions written into a sink
-/

namespace Script

/-- The text of functions that others have been written before. -/
def laterText (functions : List Function) : String :=
  String.join ((functions.filter fun function => !function.isEmpty).map
    fun function => "\n" ++ function.text ++ "\n")

theorem laterText_cons_of_empty {function : Function} (empty : function.isEmpty = true) (rest : List Function) :
    laterText (function :: rest) = laterText rest := by
  simp [laterText, empty]

theorem laterText_cons_of_body {function : Function} (body : function.isEmpty = false) (rest : List Function) :
    laterText (function :: rest) = "\n" ++ function.text ++ "\n" ++ laterText rest := by
  simp [laterText, body]

theorem text_cons_of_empty {function : Function} (empty : function.isEmpty = true) (rest : List Function) :
    text (function :: rest) = text rest := by
  simp [text, empty]

/-- A blank line stands between a function and the functions after it. -/
theorem intercalate_eq_join (first : String) (rest : List String) :
    "\n".intercalate (first :: rest) = first ++ String.join (rest.map ("\n" ++ ·)) := by
  induction rest generalizing first with
  | nil => simp
  | cons second rest ih =>
      rw [String.intercalate_cons_cons, ih, List.map_cons, String.join_cons]
      simp only [String.append_assoc]

theorem text_cons_of_body {function : Function} (body : function.isEmpty = false) (rest : List Function) :
    text (function :: rest) = function.text ++ "\n" ++ laterText rest := by
  simp only [text, body, Bool.not_false, List.filter_cons_of_pos, List.map_cons]
  rw [intercalate_eq_join, laterText, List.map_map]
  simp only [Function.comp_def, String.append_assoc]

/-- Writing a function with a body goes on with the rest if the function fits. -/
theorem writeFrom_cons_of_body {function : Function} (body : function.isEmpty = false) (first : Bool)
    (sink : Sink) (rest : List Function) :
    writeFrom first sink (function :: rest) =
      let put := sink.put ((if first then "" else "\n") ++ function.text ++ "\n")
      if put.2 then writeFrom false put.1 rest else ⟨put.1, [], false⟩ := by
  have pieces : String.join ((if first then [] else ["\n"]) ++ function.pieces ++ ["\n"]) =
      (if first then "" else "\n") ++ function.text ++ "\n" := by
    cases first <;> simp [String.join_append, Function.text, String.append_assoc]
  simp only [writeFrom, body, Bool.false_eq_true, if_false, Sink.putAll_eq_put_join, pieces]
  obtain ⟨next, fitted⟩ := sink.put ((if first then "" else "\n") ++ function.text ++ "\n")
  cases fitted <;> rfl

/-- Functions written after others are their text put in at once. -/
theorem writeFrom_eq_put_laterText (sink : Sink) (functions : List Function) :
    ((writeFrom false sink functions).sink, (writeFrom false sink functions).complete) =
      sink.put (laterText functions) := by
  induction functions generalizing sink with
  | nil => exact (Sink.put_empty sink).symm
  | cons function rest ih =>
      cases body : function.isEmpty with
      | true =>
          simp only [writeFrom, body, if_true, laterText_cons_of_empty body]
          exact ih sink
      | false =>
          rw [writeFrom_cons_of_body body, laterText_cons_of_body body,
            Sink.put_append sink ("\n" ++ function.text ++ "\n")]
          simp only [Bool.false_eq_true, if_false]
          split
          · exact ih _
          · rename_i stopped
            exact Prod.ext rfl (Bool.eq_false_iff.mpr stopped).symm

/-- Written functions are the text of the script put in at once, as far as it fits. -/
theorem write_eq_put_text (sink : Sink) (functions : List Function) :
    ((write sink functions).sink, (write sink functions).complete) = sink.put (text functions) := by
  unfold write
  induction functions with
  | nil => exact (Sink.put_empty sink).symm
  | cons function rest ih =>
      cases body : function.isEmpty with
      | true =>
          simp only [writeFrom, body, if_true, text_cons_of_empty body]
          exact ih
      | false =>
          rw [writeFrom_cons_of_body body, text_cons_of_body body,
            Sink.put_append sink (function.text ++ "\n")]
          simp only [if_true, String.empty_append]
          split
          · exact writeFrom_eq_put_laterText _ rest
          · rename_i stopped
            exact Prod.ext rfl (Bool.eq_false_iff.mpr stopped).symm

/-- A sink without a limit takes the whole text of the script. -/
theorem write_unlimited (functions : List Function) :
    (write {} functions).sink.bytes = utf8Bytes (text functions) ∧ (write {} functions).complete = true := by
  have written := write_eq_put_text {} functions
  rw [Sink.put_unlimited rfl, Prod.mk.injEq] at written
  exact ⟨congrArg Sink.bytes written.1, written.2⟩

/-- A sink with a limit ends up with the front of what a sink without one holds, up to the limit, wherever in a name,
in a line or between two functions that cuts it off. That not all has been written is reported exactly if there is
more than fits. -/
theorem write_limited (functions : List Function) (limit : Nat) :
    (write { capacity := some limit } functions).sink.bytes =
        (write {} functions).sink.bytes.take (min limit (write {} functions).sink.bytes.length) ∧
      ((write { capacity := some limit } functions).complete = false ↔
        limit < (write {} functions).sink.bytes.length) ∧
      (write {} functions).sink.bytes = utf8Bytes (text functions) ∧ (write {} functions).complete = true := by
  rcases write_unlimited functions with ⟨whole, complete⟩
  have written := write_eq_put_text { capacity := some limit } functions
  have cut := @Sink.put_limited { capacity := some limit } limit rfl (Nat.zero_le limit) (text functions)
  rw [← written, List.nil_append, ← whole] at cut
  refine ⟨?_, cut.2, whole, complete⟩
  rw [cut.1, ← List.take_take, List.take_length]

end Script

end ShellUnits
