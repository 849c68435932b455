/-
# TestProgram.LabelIndex -- which declaration a reference means

A reference sees the labels of its own sequence whose scope encloses the scope it
was made in.  A named one means the nearest of them (at equal distance the one
before it), and failing any, a global label or a label of a data region; the index
holds these two tables.  A numeric one means the next or the last of them, and
nothing outside its sequence.

`resolve` binds every label operand of a sequence or fails with the first that means
nothing.
-/
import TestProgram.Fault
import TestProgram.Instruction
import TestProgram.Journal

namespace TestProgram

set_option autoImplicit false

structure LabelIndex where
  globals : KeyMap LabelTarget := []
  data : KeyMap LabelTarget := []

namespace LabelIndex

/-! ## Filling the index -/

def addGlobal (index : LabelIndex) (name : String) (target : LabelTarget) :
    Except Fault LabelIndex :=
  if index.globals.contains name then .error (Fault.of (.globalDeclaredTwice name))
  else .ok { index with globals := index.globals.insert name target }

/-- A label of a data region; of two with one name the first counts. -/
def addData (index : LabelIndex) (label : Label) (target : LabelTarget) :
    Except Fault LabelIndex := do
  let name := label.name.render
  let index ← if label.isGlobal then index.addGlobal name target else .ok index
  .ok { index with
    data := if index.data.contains name then index.data else index.data.insert name target }

/-- The kept global labels of an instruction. -/
def globalLabels (instruction : Instruction) : List PlacedLabel :=
  instruction.labels.filter (fun placed => placed.label.isGlobal)

def addInstruction (index : LabelIndex) (target : LabelTarget) (instruction : Instruction) :
    Except Fault LabelIndex :=
  ((globalLabels instruction).foldlM
    (fun (held : LabelIndex) placed => held.addGlobal placed.rendered target) index).mapError
      (fun fault => fault.locate? instruction.location)

def addFrom (phase : PhaseKind) (sequence : Nat) : Nat → LabelIndex → Sequence →
    Except Fault LabelIndex
  | _, index, [] => .ok index
  | position, index, instruction :: rest => do
      let index ← index.addInstruction (.code phase sequence position) instruction
      addFrom phase sequence (position + 1) index rest

/-- Every global label of a sequence. -/
def addSequence (index : LabelIndex) (phase : PhaseKind) (sequence : Nat)
    (instructions : Sequence) : Except Fault LabelIndex :=
  addFrom phase sequence 0 index instructions

/-! ## Declarations in sight -/

/-- The labels of a sequence with the positions of their instructions. -/
def declarations (instructions : Sequence) : List (Nat × PlacedLabel) :=
  instructions.zipIdx.flatMap
    (fun (instruction, position) => instruction.labels.map (position, ·))

/-- The declarations of the reference's name or slot that it sees. -/
def visible (reference : LabelReference) (instructions : Sequence) : List (Nat × PlacedLabel) :=
  (declarations instructions).filter (fun (_, placed) =>
    placed.label.scope.encloses reference.scope &&
      match reference with
      | .named name _ => placed.label.name == .named name
      | .numeric slot _ _ => placed.label.name == .numeric slot)

def distance (position place : Nat) : Nat :=
  (position - place) + (place - position)

/-- Whether `first` is nearer to the position than `second`: less far, or as far and not
behind it where `second` is. -/
def nearer (position first second : Nat) : Bool :=
  decide (distance position first < distance position second) ||
    (distance position first == distance position second &&
      decide (first ≤ position) && decide (position < second))

/-- The nearest declaration, and the first of those equally near. -/
def nearest (position : Nat) : List (Nat × PlacedLabel) → Option (Nat × PlacedLabel)
  | [] => none
  | candidate :: rest =>
      match nearest position rest with
      | none => some candidate
      | some other => if nearer position other.1 candidate.1 then some other else some candidate

/-- The declaration in the sequence that a reference at a position means. -/
def local? (instructions : Sequence) (position : Nat) (reference : LabelReference) :
    Option (Nat × PlacedLabel) :=
  let candidates := visible reference instructions
  match reference with
  | .named _ _ => nearest position candidates
  | .numeric _ true _ => candidates.find? (fun (place, _) => position < place)
  | .numeric _ false _ => (candidates.filter (fun (place, _) => place ≤ position)).getLast?

/-- The place that a name has outside all sequences in sight. -/
def outer? (index : LabelIndex) : LabelReference → Option ResolvedLabel
  | .named name _ =>
      ((index.globals.find? name).or (index.data.find? name)).map (fun target => ⟨name, target⟩)
  | .numeric _ _ _ => none

def find? (index : LabelIndex) (phase : PhaseKind) (sequence : Nat) (instructions : Sequence)
    (position : Nat) (reference : LabelReference) : Option ResolvedLabel :=
  match local? instructions position reference with
  | some (place, placed) => some ⟨placed.rendered, .code phase sequence place⟩
  | none => index.outer? reference

/-! ## Binding operands -/

def resolveOperand (index : LabelIndex) (phase : PhaseKind) (sequence : Nat)
    (instructions : Sequence) (position : Nat) : Operand → Except Fault Operand
  | .label reference _ =>
      match index.find? phase sequence instructions position reference with
      | some label => .ok (.label reference (some label))
      | none => .error (Fault.of (.unresolvedLabel reference))
  | operand => .ok operand

def resolveInstruction (index : LabelIndex) (phase : PhaseKind) (sequence : Nat)
    (instructions : Sequence) (position : Nat) (instruction : Instruction) :
    Except Fault Instruction := do
  let operands ← (instruction.operands.mapM
    (index.resolveOperand phase sequence instructions position)).mapError
      (fun fault => fault.locate? instruction.location)
  .ok { instruction with operands }

/-- The sequence with every label operand bound. -/
def resolve (index : LabelIndex) (phase : PhaseKind) (sequence : Nat) (instructions : Sequence) :
    Except Fault Sequence :=
  instructions.zipIdx.mapM (fun (instruction, position) =>
    index.resolveInstruction phase sequence instructions position instruction)

/-- The remarks on the bound operands of a sequence. -/
def remarks (instructions : Sequence) : List Remark :=
  instructions.flatMap (fun instruction => instruction.operands.filterMap (fun
    | .label _ (some label) => some (.resolved label.rendered label.target)
    | _ => none))

end LabelIndex
end TestProgram
