import ShellUnits.CompileError
import ShellUnits.Keyed

/-!
The options of a document.

The only recognized setting is the separator, under the key `separator` or its alias `sep`. Normalizing
folds the alias, checks the value and writes the separator that is meant in place of it.

Main definitions: `Options`, `Options.normalize`, `Options.separator`.
-/

namespace ShellUnits

/-- The settings of a document in order. -/
abbrev Options := Keyed String Value

namespace Options

def separatorKey : String := "separator"
def separatorAlias : String := "sep"

/-- The separator that a value names. -/
def parseSeparator (value : Value) : Except CompileError Separator :=
  match Separator.ofValue? value with
  | some separator => .ok separator
  | none => .error (.invalidSeparator value)

/-- Moves the value of the alias to the main key, unless that is taken; the alias is gone in any case. -/
def foldAlias (options : Options) : Options × List Event :=
  match Keyed.get? separatorAlias options with
  | none => (options, [])
  | some value =>
    let rest := Keyed.erase separatorAlias options
    if Keyed.contains separatorKey rest then (rest, [.separatorGivenTwice])
    else (Keyed.insert separatorKey value rest, [])

/-- The separator meant by a setting that may be missing or null. -/
def chosenSeparator : Option Value → Except CompileError Separator
  | none => .ok .dot
  | some .null => .ok .dot
  | some value => parseSeparator value

/-- Folds the alias, checks the separator and writes it out. After a failure the alias has been folded. -/
def normalize (options : Options) : Pass Options Separator :=
  let (folded, events) := foldAlias options
  match chosenSeparator (Keyed.get? separatorKey folded) with
  | .error failure => ⟨folded, events, .error failure⟩
  | .ok separator =>
    let written := Keyed.insert separatorKey (.string separator.text) folded
    let others := (Keyed.keys written).filter fun key => key != separatorKey
    ⟨written, events ++ others.map .unrecognizedOption, .ok separator⟩

/-- Reads the separator of options that have been normalized. -/
def separator (options : Options) : Except CompileError Separator :=
  match Keyed.get? separatorKey options with
  | none => .ok .dot
  | some value => parseSeparator value

end Options

end ShellUnits
