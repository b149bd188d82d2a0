import ShellUnits.CommandLine.Run

/-!
The program. It answers the questions of a run from the files of the machine and prints the outcome.
-/

namespace ShellUnits.CommandLine

/-- What the machine reports, as a failure to read. -/
def failureOf (failure : IO.Error) : ReadFailure :=
  match failure with
  | .noFileOrDirectory _ _ _ => .notFound
  | .inappropriateType _ code _ =>
    if code = 20 then .notDirectory else if code = 21 then .isDirectory else .other (toString failure)
  | _ => .other (toString failure)

/-- Runs an action of the machine and keeps its failure as a value. -/
def attempt {α : Type} (action : IO α) : IO (Except ReadFailure α) := do
  match ← action.toBaseIO with
  | .ok value => return .ok value
  | .error failure => return .error (failureOf failure)

/-- The path of a path seen from a work directory. -/
def seenFrom (place path : String) : String :=
  if path.toList.head? = some '/' then path else place ++ "/" ++ path

/-- The files of the machine. A place is the full path of a file or a directory. -/
def machineFiles (start : String) : FileSystem IO String where
  start := start
  resolve := fun place path => do
    match ← attempt (IO.FS.realPath (seenFrom place path)) with
    | .ok full => return .ok full.toString
    | .error failure =>
      -- Opening the path tells more exactly why it leads nowhere.
      match ← attempt (IO.FS.Handle.mk (seenFrom place path) .read) with
      | .ok _ => return .error failure
      | .error reason => return .error reason
  enter := fun place => do
    let full ← IO.FS.realPath place
    if ← full.isDir then return .ok () else return .error .notDirectory
  read := fun place path => do
    match ← attempt (do (← IO.FS.Handle.mk (seenFrom place path) .read).readBinToEnd) with
    | .error failure => return .error failure
    | .ok bytes =>
      match String.fromUTF8? bytes with
      | some text => return .ok text
      | none => return .error .notText
  pathOf := fun place => place

end ShellUnits.CommandLine

/-- Runs the command line on the arguments of the process. -/
def main (arguments : List String) : IO UInt32 := do
  let start ← IO.FS.realPath "."
  let outcome ← ShellUnits.CommandLine.run (ShellUnits.CommandLine.machineFiles start.toString) arguments
  (← IO.getStdout).putStr outcome.stdout
  (← IO.getStderr).putStr outcome.stderr
  return UInt32.ofNat outcome.code
