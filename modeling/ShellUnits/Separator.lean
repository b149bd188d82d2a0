import ShellUnits.Value

/-!
The separator between the keys of a qualified name.
-/

namespace ShellUnits

/-- What joins the keys of a qualified name. -/
inductive Separator where
  | dot
  | dash
  | colon
deriving DecidableEq, Repr, Inhabited

namespace Separator

def all : List Separator := [dot, dash, colon]

def text : Separator → String
  | dot => "."
  | dash => "-"
  | colon => ":"

/-- The separator with this text. -/
def ofText? (text : String) : Option Separator :=
  all.find? fun separator => separator.text == text

/-- The separator that a value names; tags are looked through. -/
def ofValue? (value : Value) : Option Separator :=
  value.asText?.bind ofText?

/-- The separators as an error text lists them. -/
def listing : String :=
  ", ".intercalate (all.map fun separator => "\"" ++ separator.text ++ "\"")

end Separator

end ShellUnits
