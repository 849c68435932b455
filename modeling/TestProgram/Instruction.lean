/-
# TestProgram.Instruction -- lines of a generated sequence

An instruction is a call whose place is final: its random arguments are drawn, its
labels have the text they are printed with, and a label operand can be bound to
the place it refers to.
-/
import TestProgram.Call
import TestProgram.LabelTarget

namespace TestProgram

set_option autoImplicit false

/-- A label bound to its place, with the text it is declared by there. -/
structure ResolvedLabel where
  rendered : String
  target : LabelTarget
deriving DecidableEq, Repr

inductive Operand
  | value (scalar : Scalar)
  | label (reference : LabelReference) (bound : Option ResolvedLabel)
  | address (reference : AddressReference)
deriving DecidableEq, Repr

/-- A label declaration and the text it is printed with. -/
structure PlacedLabel where
  label : Label
  rendered : String
deriving DecidableEq, Repr

structure Instruction where
  name : String
  operands : List Operand
  labels : List PlacedLabel
  outputs : List Output
  situation : Option Situation
  attributes : Attributes
  memory : Option MemorySection
  location : Option Location

def Instruction.isExecutable (instruction : Instruction) : Bool :=
  !instruction.name.isEmpty

abbrev Sequence := List Instruction

end TestProgram
