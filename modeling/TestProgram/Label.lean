/-
# TestProgram.Label -- labels and references to them

A label has a name of its own or one of ten numbers that may be used again and
again.  It is declared in a block, its scope, and a reference carries the block it
was made in; a reference sees the labels whose scope encloses its own.  `global`
labels are seen everywhere, `weak` ones give way to others of the same name.
-/
import TestProgram.BlockId

namespace TestProgram

set_option autoImplicit false

/-- The number of a numeric label. -/
abbrev NumericSlot := Fin 10

inductive LabelName
  | named (name : String)
  | numeric (slot : NumericSlot)
deriving DecidableEq, Repr

def LabelName.render : LabelName → String
  | .named name => name
  | .numeric slot => toString slot.val

structure Label where
  name : LabelName
  isGlobal : Bool := false
  isWeak : Bool := false
  scope : BlockId
deriving DecidableEq, Repr

inductive LabelReference
  | named (name : String) (scope : BlockId)
  | numeric (slot : NumericSlot) (forward : Bool) (scope : BlockId)
deriving DecidableEq, Repr

namespace LabelReference

def scope : LabelReference → BlockId
  | .named _ scope => scope
  | .numeric _ _ scope => scope

/-- The letter after a numeric reference: `f` looks forward, `b` back. -/
def direction (forward : Bool) : String :=
  if forward then "f" else "b"

def render : LabelReference → String
  | .named name _ => name
  | .numeric slot forward _ => toString slot.val ++ direction forward

end LabelReference
end TestProgram
