import ShellUnits.Text.Lines
import ShellUnits.Unit

/-!
Shell functions.

A function has a name and maybe a working directory and a command. Its body changes to the directory and
then holds the lines of the command; line feeds at the end of the command do not count.

Main definitions: `Function`, `Function.bodyLines`, `Function.pieces`.
-/

namespace ShellUnits

/-- A shell function. -/
structure Function where
  name : String
  workingDirectory : Option String := none
  command : Option String := none
deriving DecidableEq, Repr, Inhabited

namespace Function

/-- The function of a group, which has one if it has a name. -/
def ofAttributes? (attributes : Attributes) : Option Function :=
  attributes.qualifiedName.map fun name =>
    ⟨name, attributes.workingDirectory, attributes.command⟩

/-- The lines of the command. -/
def commandLines (function : Function) : List String :=
  let text := (function.command.getD "").toList
  (Text.lines (Text.dropTrailing (· == '\n') text)).map String.ofList

/-- The line that changes to the working directory, if there is one. -/
def directoryLines (function : Function) : List String :=
  match function.workingDirectory with
  | some directory => ["cd " ++ directory]
  | none => []

/-- The lines of the body. -/
def bodyLines (function : Function) : List String :=
  function.directoryLines ++ function.commandLines

/-- Whether there is no body; a shell does not accept such a function. -/
def isEmpty (function : Function) : Bool :=
  function.bodyLines.isEmpty

/-- The text of the function, in the pieces that it is written in. -/
def pieces (function : Function) : List String :=
  [function.name, "() \x7b\n"]
    ++ function.bodyLines.flatMap (fun line => ["\t", line, "\n"]) ++ ["\x7d"]

/-- The text of the function, without a line end. -/
def text (function : Function) : String :=
  String.join function.pieces

end Function

end ShellUnits
