import ShellUnits.Event
import ShellUnits.Function.Basic
import ShellUnits.Sink

/-!
Writing functions one after the other.

Functions without a body are reported and left out. Each function ends its last line, and a blank line
stands between two functions. Writing stops at the first text that the sink refuses.

Main definitions: `Script.write`, `Script.text`.
-/

namespace ShellUnits.Script

/-- A script after writing: where it went, what was reported, and whether all of it fitted. -/
structure Written where
  sink : Sink
  events : List Event := []
  complete : Bool := true

/-- Writes functions; `first` tells that nothing has been written before them. -/
def writeFrom (first : Bool) (sink : Sink) : List Function → Written
  | [] => ⟨sink, [], true⟩
  | function :: rest =>
    if function.isEmpty then
      let written := writeFrom first sink rest
      { written with events := .functionWithoutBody function.name :: written.events }
    else
      match sink.putAll ((if first then [] else ["\n"]) ++ function.pieces ++ ["\n"]) with
      | (next, true) => writeFrom false next rest
      | (next, false) => ⟨next, [], false⟩

/-- Writes functions into a sink. -/
def write (sink : Sink) (functions : List Function) : Written :=
  writeFrom true sink functions

/-- The whole text of a script. -/
def text (functions : List Function) : String :=
  "\n".intercalate ((functions.filter fun function => !function.isEmpty).map
    fun function => function.text ++ "\n")

end ShellUnits.Script
