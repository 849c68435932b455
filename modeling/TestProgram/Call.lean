/-
# TestProgram.Call -- instruction calls

A call is a leaf of the composition tree: the name of an instruction, which means
nothing to the generator, its arguments, and what it carries along.  A call
without a name is a placeholder that carries labels and outputs only.  Arguments
are settled when the call's place in a sequence is final, so every copy of a call
draws its own values.
-/
import TestProgram.AddressReference
import TestProgram.MemorySection
import TestProgram.Situation

namespace TestProgram

set_option autoImplicit false

inductive Argument
  | value (scalar : Scalar)
  | random (distribution : Distribution)
  | range (lowest highest : Int)
  | label (reference : LabelReference)
  | address (reference : AddressReference)

/-- Arguments as they are written before anything is drawn. -/
def Argument.render : Argument → String
  | .value scalar => scalar.render
  | .random _ => "rand(dist)"
  | .range lowest highest => s!"rand({lowest}, {highest})"
  | .label reference => reference.render
  | .address reference => reference.render

/-- The range argument from `lowest` to `highest`. -/
def Argument.between (lowest highest : Int) : Except Fault Argument :=
  if highest < lowest then .error (Fault.of (.emptyRandomRange lowest highest))
  else .ok (.range lowest highest)

/-- Free text in front of a call. -/
inductive Output
  | text (content : String)
  | comment (content : String)
deriving DecidableEq, Repr

structure Call where
  name : String
  arguments : List Argument := []
  labels : List Label := []
  outputs : List Output := []
  situation : Option Situation := none
  attributes : Attributes := []
  memory : Option MemorySection := none
  location : Option Location := none

namespace Call

def isExecutable (call : Call) : Bool :=
  !call.name.isEmpty

end Call

/-! ## Drawing an integer argument -/

namespace Draw

/-- An integer from `lowest` to `highest`, which must not be in the wrong order. -/
def between (lowest highest : Int) : Distribution.Sampler Int :=
  if highest < lowest then throw (Fault.of (.emptyRandomRange lowest highest))
  else (Draw.integer lowest highest : Draw Int)

end Draw
end TestProgram
