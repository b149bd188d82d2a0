import ShellUnits.Text.Lines

/-!
Joining working directories.
-/

namespace ShellUnits

open Text

/-- The directory `child` seen from `parent`: joined by one slash, slashes at the end of the parent
    counting as none. A missing or empty parent leaves the child as it is. -/
def scopedPath (parent : Option String) (child : String) : String :=
  match parent with
  | none => child
  | some parent =>
    if parent = "" then child
    else String.ofList (dropTrailing (· == '/') parent.toList) ++ "/" ++ child

end ShellUnits
