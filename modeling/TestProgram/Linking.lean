/-
# TestProgram.Linking -- binding the references of many sequences

No reference can be bound before all sequences are known, since a global label may
stand in a later one.  So an index is filled first, with the labels of the data
sections and then with the global labels of every sequence in turn; after that each
sequence is bound on its own, with a remark for every operand that was.
-/
import TestProgram.Engine
import TestProgram.LabelIndex

namespace TestProgram

set_option autoImplicit false

/-- A sequence with its place: the phase, and its number there. -/
structure NumberedSequence where
  phase : PhaseKind
  number : Nat
  instructions : Sequence

namespace LabelIndex

def addDataLabels (index : LabelIndex) (labels : List (Label × LabelTarget)) :
    Except Fault LabelIndex :=
  labels.foldlM (fun (held : LabelIndex) (label, target) => held.addData label target) index

def addSequences (index : LabelIndex) (sequences : List NumberedSequence) :
    Except Fault LabelIndex :=
  sequences.foldlM
    (fun (held : LabelIndex) sequence =>
      held.addSequence sequence.phase sequence.number sequence.instructions) index

/-- The index of everything that was generated. -/
def ofAll (labels : List (Label × LabelTarget)) (sequences : List NumberedSequence) :
    Except Fault LabelIndex := do
  let index ← addDataLabels {} labels
  index.addSequences sequences

/-- Bind the operands of a sequence. -/
def link (index : LabelIndex) (sequence : NumberedSequence) : Generation Sequence := do
  let instructions ← Generation.ofExcept
    (index.resolve sequence.phase sequence.number sequence.instructions)
  (remarks instructions).forM Generation.remark
  pure instructions

end LabelIndex
end TestProgram
