import ShellUnits.Document.LoadError
import ShellUnits.Keyed
import ShellUnits.Text.Lines

/-!
The files that a run can see.

`FileSystem` lists what a run asks of the file system, in any monad. `FileTree` is a file system of its own:
files below one root directory, everything outside of it unknown. A path is followed component by component;
each component needs a directory to be looked up in.

Main definitions: `FileSystem`, `FileTree`, `FileTree.fileSystem`.
-/

namespace ShellUnits.CommandLine

/-- What a run asks of the file system. -/
structure FileSystem (m : Type → Type) (Place : Type) where
  /-- The work directory at the start. -/
  start : Place
  /-- The place that a path leads to from a work directory. -/
  resolve : Place → String → m (Except ReadFailure Place)
  /-- Whether a place can become the work directory. -/
  enter : Place → m (Except ReadFailure Unit)
  /-- The text of the file that a path leads to from a work directory. -/
  read : Place → String → m (Except ReadFailure String)
  /-- The full path of a place. -/
  pathOf : Place → String

/-- Files below a root directory, each under the names on the way to it. -/
structure FileTree where
  root : String
  files : Keyed (List String) String := []
deriving DecidableEq, Repr

/-- A place as a file tree knows it. -/
inductive Place where
  /-- Where these names lead from the root directory. -/
  | inside (names : List String)
  /-- Somewhere else. -/
  | outside
deriving DecidableEq, Repr

/-- The components of a path. -/
def components (path : String) : List String :=
  (Text.pieces '/' path.toList).map String.ofList

namespace FileTree

/-- The tree with these files, each given by its path from the root. -/
def ofFiles (root : String) (files : List (String × String)) : FileTree :=
  ⟨root, Keyed.ofList (files.map fun file =>
    ((components file.1).filter fun name => name != "" && name != ".", file.2))⟩

/-- Whether the names lead to a directory: the root, or what lies on the way to a file. -/
def isDirectory (tree : FileTree) (names : List String) : Bool :=
  names.isEmpty || tree.files.any fun file => names.isPrefixOf file.1 && names.length < file.1.length

/-- Follows one component of a path. -/
def step (tree : FileTree) (place : Place) (name : String) : Except ReadFailure Place :=
  match place with
  | .outside => if name = "" || name = "." || name = ".." then .ok .outside else .error .notFound
  | .inside names =>
    if !tree.isDirectory names then .error .notDirectory
    else if name = "" || name = "." then .ok place
    else if name = ".." then .ok (if names = [] then .outside else .inside names.dropLast)
    else
      let below := names ++ [name]
      if tree.isDirectory below || Keyed.contains below tree.files then .ok (.inside below)
      else .error .notFound

/-- Follows a path; one that begins with a slash begins outside the root directory. -/
def resolve (tree : FileTree) (place : Place) (path : String) : Except ReadFailure Place :=
  let start := if path.toList.head? = some '/' then .outside else place
  (components path).foldlM (tree.step · ·) start

def enter (tree : FileTree) : Place → Except ReadFailure Unit
  | .outside => .ok ()
  | .inside names => if tree.isDirectory names then .ok () else .error .notDirectory

def read (tree : FileTree) (place : Place) (path : String) : Except ReadFailure String :=
  match tree.resolve place path with
  | .error failure => .error failure
  | .ok .outside => .error .isDirectory
  | .ok (.inside names) =>
    match Keyed.get? names tree.files with
    | some text => .ok text
    | none => .error .isDirectory

def pathOf (tree : FileTree) : Place → String
  | .outside => "/"
  | .inside names => "/".intercalate (tree.root :: names)

/-- The tree as a file system; it answers at once. -/
def fileSystem (tree : FileTree) : FileSystem Id Place where
  start := .inside []
  resolve := tree.resolve
  enter := tree.enter
  read := tree.read
  pathOf := tree.pathOf

end FileTree

end ShellUnits.CommandLine
