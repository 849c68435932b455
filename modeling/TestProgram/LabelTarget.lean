/-
# TestProgram.LabelTarget -- where a label landed

A label stands before an instruction of a generated sequence or before a directive
of a data section.
-/
import TestProgram.Phase

namespace TestProgram

set_option autoImplicit false

inductive LabelTarget
  | code (phase : PhaseKind) (sequence position : Nat)
  | data (region directive : Nat)
deriving DecidableEq, Repr

def LabelTarget.render : LabelTarget → String
  | .code phase sequence position =>
      "Code \x7b phase: " ++ phase.tag ++ s!", sequence: {sequence}, position: {position} \x7d"
  | .data region directive => s!"Data \x7b section: {region}, directive: {directive} \x7d"

end TestProgram
