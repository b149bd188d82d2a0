/-!
A place for written bytes that may be full.

A sink with a capacity stores as much of a text as fits, cut at a byte, and refuses the rest.

Main definitions: `Sink`, `Sink.put`.
-/

namespace ShellUnits

/-- The bytes of a text. -/
def utf8Bytes (text : String) : List UInt8 := text.toByteArray.data.toList

/-- Bytes that have been written, and how many there may be in all. -/
structure Sink where
  capacity : Option Nat := none
  bytes : List UInt8 := []
deriving DecidableEq, Repr

namespace Sink

/-- How many more bytes fit, out of `wanted`. -/
def room (sink : Sink) (wanted : Nat) : Nat :=
  match sink.capacity with
  | none => wanted
  | some capacity => min wanted (capacity - sink.bytes.length)

/-- Writes a text; `false` if it did not fit as a whole. -/
def put (sink : Sink) (text : String) : Sink × Bool :=
  let bytes := utf8Bytes text
  let stored := bytes.take (sink.room bytes.length)
  ({ sink with bytes := sink.bytes ++ stored }, stored.length == bytes.length)

/-- Writes texts one after the other, up to the first that does not fit. -/
def putAll (sink : Sink) : List String → Sink × Bool
  | [] => (sink, true)
  | text :: rest =>
    match sink.put text with
    | (next, true) => next.putAll rest
    | (next, false) => (next, false)

end Sink

end ShellUnits
