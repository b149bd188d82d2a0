import ShellUnits.Proofs.Lines
import ShellUnits.Proofs.Locations

/-!
Regrouping joined directories.

Joining takes the slashes at the end of the outer directory away and puts one slash between the two. So three
directories in a row give the same text whichever two are joined first, unless the middle one is of slashes only:
joined to the outer one first, it is nothing but slashes at the end, which the next join takes away, while joined to
the inner one first it stays as a slash in front.

For a chain of overrides this means that its lower part can be joined by itself, as it is where it stands at the root,
and then put below the upper part, unless the lower part begins with an override of slashes only.

Main statements: `scopedPath_assoc_iff`, `Trail.directory_append`.
-/

namespace ShellUnits

open Text

/-- The characters of a directory in front of the slashes at its end. -/
def withoutEndSlashes (directory : String) : List Char :=
  directory.toList.rdropWhile (· == '/')

theorem withoutEndSlashes_eq_nil_iff {directory : String} :
    withoutEndSlashes directory = [] ↔ ¬ ∃ c ∈ directory.toList, c ≠ '/' := by
  simp [withoutEndSlashes, List.rdropWhile_eq_nil_iff]

/-!
### One join
-/

theorem toList_scopedPath {outer : String} (ne : outer ≠ "") (inner : String) :
    (scopedPath (some outer) inner).toList = withoutEndSlashes outer ++ '/' :: inner.toList := by
  simp [scopedPath, ne, withoutEndSlashes, dropTrailing_eq_rdropWhile]

/-- A directory joined onto another one has at least the slash between them. -/
theorem scopedPath_some_ne_empty {outer : String} (ne : outer ≠ "") (inner : String) :
    scopedPath (some outer) inner ≠ "" := by
  rw [ne_eq, ← String.toList_eq_nil_iff, toList_scopedPath ne]
  simp

/-- The slashes at the end reach back over an inner directory of slashes only, and over no other. -/
theorem withoutEndSlashes_scopedPath {outer : String} (ne : outer ≠ "") (inner : String) :
    withoutEndSlashes (scopedPath (some outer) inner) =
      if withoutEndSlashes inner = [] then withoutEndSlashes outer
      else withoutEndSlashes outer ++ '/' :: withoutEndSlashes inner := by
  have slash : ['/'].rdropWhile (· == '/') = [] := rfl
  have trimmed : (withoutEndSlashes outer).rdropWhile (· == '/') = withoutEndSlashes outer :=
    List.rdropWhile_idempotent _ _
  have inFront : (withoutEndSlashes outer ++ ['/']).rdropWhile (· == '/') = withoutEndSlashes outer := by
    rw [rdropWhile_append, if_pos slash, trimmed]
  rw [withoutEndSlashes, toList_scopedPath ne, List.append_cons, rdropWhile_append, inFront, ← withoutEndSlashes,
    ← List.append_cons]

/-- What the outer directory has besides slashes is still there after the join. -/
theorem scopedPath_notBare {outer : String} (notBare : ∃ c ∈ outer.toList, c ≠ '/') (inner : String) :
    ∃ c ∈ (scopedPath (some outer) inner).toList, c ≠ '/' := by
  obtain ⟨c, mem, notSlash⟩ := notBare
  have ne : outer ≠ "" := by
    rintro rfl
    simp at mem
  refine ⟨c, ?_, notSlash⟩
  rw [toList_scopedPath ne]
  exact List.mem_append_left _ ((mem_rdropWhile_iff notSlash).mpr mem)

/-!
### Three directories
-/

section

variable {outer middle : String} (someOuter : outer ≠ "")

include someOuter

/-- Joined from the outside in, a middle directory of slashes only leaves no trace. -/
theorem toList_scopedPath_inwards (middle inner : String) :
    (scopedPath (some (scopedPath (some outer) middle)) inner).toList =
      if withoutEndSlashes middle = [] then withoutEndSlashes outer ++ '/' :: inner.toList
      else withoutEndSlashes outer ++ '/' :: (withoutEndSlashes middle ++ '/' :: inner.toList) := by
  rw [toList_scopedPath (scopedPath_some_ne_empty someOuter middle), withoutEndSlashes_scopedPath someOuter]
  split
  · rfl
  · rw [List.append_assoc, List.cons_append]

/-- Joined from the inside out, any middle directory that is not empty leaves a slash. -/
theorem toList_scopedPath_outwards (someMiddle : middle ≠ "") (inner : String) :
    (scopedPath (some outer) (scopedPath (some middle) inner)).toList =
      withoutEndSlashes outer ++ '/' :: (withoutEndSlashes middle ++ '/' :: inner.toList) := by
  rw [toList_scopedPath someOuter, toList_scopedPath someMiddle]

end

/-- A middle directory with something besides slashes can be joined to either side first. -/
theorem scopedPath_assoc {middle : String} (notBare : ∃ c ∈ middle.toList, c ≠ '/') (outer : Option String)
    (inner : String) :
    scopedPath (some (scopedPath outer middle)) inner = scopedPath outer (scopedPath (some middle) inner) := by
  cases outer with
  | none => rfl
  | some outer =>
      by_cases noOuter : outer = ""
      · rw [noOuter]
        rfl
      · have someMiddle : middle ≠ "" := by
          rintro rfl
          simp at notBare
        have left : withoutEndSlashes middle ≠ [] := by
          rw [ne_eq, withoutEndSlashes_eq_nil_iff, not_not]
          exact notBare
        rw [← String.toList_inj, toList_scopedPath_inwards noOuter, if_neg left,
          toList_scopedPath_outwards noOuter someMiddle]

/-- An empty middle directory leaves no trace. -/
theorem scopedPath_scopedPath_empty (outer : Option String) (inner : String) :
    scopedPath (some (scopedPath outer "")) inner = scopedPath outer inner := by
  cases outer with
  | none => rfl
  | some outer =>
      by_cases noOuter : outer = ""
      · rw [noOuter]
        rfl
      · have nothing : withoutEndSlashes "" = [] := rfl
        rw [← String.toList_inj, toList_scopedPath_inwards noOuter, if_pos nothing, toList_scopedPath noOuter]

/-- A middle directory of slashes only makes a difference of one slash. -/
theorem length_scopedPath_of_bare {outer middle : String} (someOuter : outer ≠ "") (someMiddle : middle ≠ "")
    (bare : withoutEndSlashes middle = []) (inner : String) :
    (scopedPath (some outer) (scopedPath (some middle) inner)).length =
      (scopedPath (some (scopedPath (some outer) middle)) inner).length + 1 := by
  rw [← String.length_toList, ← String.length_toList, toList_scopedPath_inwards someOuter, if_pos bare,
    toList_scopedPath_outwards someOuter someMiddle, bare]
  simp only [List.nil_append, List.length_append, List.length_cons]
  omega

/-- Three directories in a row give the same text whichever two are joined first exactly if there is no outer one, or
the middle one is empty or has something besides slashes. -/
theorem scopedPath_assoc_iff (outer : Option String) (middle inner : String) :
    scopedPath (some (scopedPath outer middle)) inner = scopedPath outer (scopedPath (some middle) inner) ↔
      outer = none ∨ outer = some "" ∨ middle = "" ∨ ∃ c ∈ middle.toList, c ≠ '/' := by
  constructor
  · intro same
    by_contra other
    simp only [not_or] at other
    obtain ⟨present, someOuter, someMiddle, bare⟩ := other
    obtain ⟨outer, rfl⟩ := Option.ne_none_iff_exists'.mp present
    have longer := length_scopedPath_of_bare (fun empty => someOuter (congrArg some empty)) someMiddle
      (withoutEndSlashes_eq_nil_iff.mpr bare) inner
    rw [← same] at longer
    omega
  · rintro (rfl | rfl | rfl | notBare)
    · rfl
    · rfl
    · exact scopedPath_scopedPath_empty outer inner
    · exact scopedPath_assoc notBare outer inner

/-- The join in which the slash in the middle is lost, and the one that keeps it. -/
example :
    scopedPath (some (scopedPath (some "x") "/")) "y" = "x/y" ∧
      scopedPath (some "x") (scopedPath (some "/") "y") = "x//y" := by decide

/-!
### Chains of overrides
-/

/-- The overrides that are not empty, in their order. -/
def Trail.overrides (trail : Trail) : List String :=
  (trail.map fun step => step.2.override?).filterMap nonEmpty

/-- Overrides can be joined by themselves before they are joined onto what is around them. -/
theorem foldl_scopedPath {first : String} (notBare : ∃ c ∈ first.toList, c ≠ '/') (outer : Option String)
    (others : List String) :
    others.foldl (fun outer override => some (scopedPath outer override)) (some (scopedPath outer first)) =
      (others.foldl (fun outer override => some (scopedPath outer override)) (some first)).map (scopedPath outer) := by
  induction others generalizing first with
  | nil => rfl
  | cons next others ih =>
      rw [List.foldl_cons, List.foldl_cons, scopedPath_assoc notBare, ih (scopedPath_notBare notBare next)]

theorem exists_foldl_scopedPath (first : String) (others : List String) :
    ∃ joined, others.foldl (fun outer override => some (scopedPath outer override)) (some first) = some joined := by
  induction others generalizing first with
  | nil => exact ⟨first, rfl⟩
  | cons next others ih => exact ih (scopedPath (some first) next)

/-- The directory at the end of a trail is the directory that its lower part would have at the root, joined onto the
directory of its upper part. If there is no override in the lower part, it is the latter. -/
theorem Trail.directory_append (root : Option String) (above below : Trail)
    (notBare : ∀ first ∈ below.overrides.head?, ∃ c ∈ first.toList, c ≠ '/') :
    Trail.directory root (above ++ below) =
      ((Trail.directory none below).map (scopedPath (Trail.directory root above))).or
        (Trail.directory root above) := by
  have split : Trail.directory root (above ++ below) =
      below.overrides.foldl (fun outer override => some (scopedPath outer override)) (Trail.directory root above) := by
    rw [Trail.directory, List.map_append, ← List.cons_append, List.filterMap_append, List.foldl_append]
    rfl
  have alone : Trail.directory none below =
      below.overrides.foldl (fun outer override => some (scopedPath outer override)) none := rfl
  rw [split, alone]
  cases overrides : below.overrides with
  | nil => rfl
  | cons first others =>
      rw [overrides] at notBare
      have atRoot : scopedPath none first = first := rfl
      obtain ⟨joined, joinedEq⟩ := exists_foldl_scopedPath first others
      rw [List.foldl_cons, List.foldl_cons, foldl_scopedPath (notBare first rfl), atRoot, joinedEq, Option.map_some,
        Option.some_or]

end ShellUnits
