/-
# TestProgram.Finalization -- from a stream to a sequence of instructions

`finalize` settles what depends on the place of a call in the whole stream.

* Random arguments are drawn, call by call and argument by argument.
* A weak named label is dropped when a label of that name that is not weak occurs
  anywhere in the stream, or an earlier weak one of that name (`Ledger.place`).
* A local named label is printed by its name the first time and with the number of
  its earlier occurrences after that; every other label is printed by its name.
-/
import TestProgram.Engine
import TestProgram.Instruction
import TestProgram.Stream

namespace TestProgram

set_option autoImplicit false

/-! ## Labels -/

/-- What has been declared so far: the weak names kept, and how often each local name
has occurred. -/
structure Ledger where
  weak : List String := []
  counts : KeyMap Nat := []

namespace Ledger

/-- The text of a local label that occurred `count` times before. -/
def suffixed (name : String) (count : Nat) : String :=
  if count = 0 then name else name ++ "_" ++ toString count

/-- The label as it is printed, or nothing if it gives way; `strong` holds the names
declared by labels that are not weak. -/
def place (strong : List String) (ledger : Ledger) (label : Label) :
    Option PlacedLabel × Ledger :=
  match label.name with
  | .numeric slot => (some ⟨label, toString slot.val⟩, ledger)
  | .named name =>
      if label.isWeak then
        if strong.contains name || ledger.weak.contains name then (none, ledger)
        else (some ⟨label, name⟩, { ledger with weak := name :: ledger.weak })
      else if label.isGlobal then (some ⟨label, name⟩, ledger)
      else
        let count := (ledger.counts.find? name).getD 0
        (some ⟨label, suffixed name count⟩,
          { ledger with counts := ledger.counts.insert name (count + 1) })

/-- The kept labels, the names of the dropped ones, and the ledger after them. -/
def placeAll (strong : List String) : Ledger → List Label →
    List PlacedLabel × List String × Ledger
  | ledger, [] => ([], [], ledger)
  | ledger, label :: rest =>
      let (placed, ledger) := place strong ledger label
      let (others, dropped, ledger) := placeAll strong ledger rest
      match placed with
      | some label => (label :: others, dropped, ledger)
      | none => (others, label.name.render :: dropped, ledger)

end Ledger

/-- The name that a label takes for itself, if it is named and not weak. -/
def Label.strongName? (label : Label) : Option String :=
  match label.name with
  | .named name => if label.isWeak then none else some name
  | .numeric _ => none

def strongNames (calls : List Call) : List String :=
  calls.flatMap (fun call => call.labels.filterMap Label.strongName?)

/-! ## Operands -/

def Argument.settle : Argument → Distribution.Sampler Operand
  | .value scalar => pure (.value scalar)
  | .random distribution => do
      let scalar ← distribution.sample
      pure (.value scalar)
  | .range lowest highest => do
      let number ← Draw.between lowest highest
      pure (.value (.integer number))
  | .label reference => pure (.label reference none)
  | .address reference => pure (.address reference)

/-- The operands of a call; a fault gets the location of the call. -/
def Call.settle (call : Call) : Generation (List Operand) :=
  Generation.locating call.location
    (Generation.sample (call.arguments.mapM Argument.settle))

/-! ## Sequences -/

def Call.toInstruction (call : Call) (operands : List Operand) (labels : List PlacedLabel) :
    Instruction where
  name := call.name
  operands := operands
  labels := labels
  outputs := call.outputs
  situation := call.situation
  attributes := call.attributes
  memory := call.memory
  location := call.location

def finalizeCalls (strong : List String) : Ledger → List Call → Generation Sequence
  | _, [] => pure []
  | ledger, call :: rest => do
      let operands ← call.settle
      let (labels, dropped, ledger) := ledger.placeAll strong call.labels
      dropped.forM (fun name => Generation.remark (.weakDropped name))
      let others ← finalizeCalls strong ledger rest
      pure (call.toInstruction operands labels :: others)

def finalize (stream : Stream Call) : Generation Sequence :=
  finalizeCalls (strongNames stream.emissions) {} stream.emissions

end TestProgram
