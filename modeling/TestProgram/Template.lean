/-
# TestProgram.Template -- templates and what is generated from them

A template is a body for each phase.  `program` runs the three of them on a session,
takes the finished data sections, and registers the labels of the sections and the
global ones of the three phases, in order.  `generate` links the sequences besides.
-/
import TestProgram.Linking
import TestProgram.Session.Data
import TestProgram.Session.Phases

namespace TestProgram

set_option autoImplicit false

structure Template (ε : Type) where
  pre : Act ε Unit
  main : Act ε Unit
  post : Act ε Unit

/-- The phases of a template with the data written meanwhile and the places of all labels;
the operands are still to be bound. -/
structure Program where
  pre : Phase
  main : Phase
  post : Phase
  data : List DataSection
  index : LabelIndex

def Program.phases (program : Program) : List Phase :=
  [program.pre, program.main, program.post]

/-- Everything a template produced. -/
structure Generated where
  seed : Nat
  pre : Phase
  main : Phase
  post : Phase
  data : List DataSection
  globals : KeyMap LabelTarget

def Generated.phases (generated : Generated) : List Phase :=
  [generated.pre, generated.main, generated.post]

/-- The sequences of a phase with their places. -/
def Phase.numbered (phase : Phase) : List NumberedSequence :=
  phase.sequences.zipIdx.map (fun (instructions, number) =>
    { phase := phase.kind, number, instructions })

/-- The labels of data sections with their places. -/
def dataLabels (sections : List DataSection) : List (Label × LabelTarget) :=
  sections.zipIdx.flatMap (fun (region, number) =>
    region.labels.map (fun (directive, label) => (label, LabelTarget.data number directive)))

namespace Session

/-- Bind the operands of a phase. -/
def linkPhase (index : LabelIndex) (phase : Phase) : Action Phase := do
  let sequences ← Action.generation (phase.numbered.mapM index.link)
  pure { phase with sequences }

/-- Close the books on the three phases: nothing may be open any more, and no two global
labels may have one name. -/
def register (pre main post : Phase) : Action Program := do
  finishLifecycle
  if (← get).data.isOpen then throw (Fault.of .dataRegionOpen)
  let data ← Action.data DataDesk.takeSections
  let index ← Action.ofExcept (LabelIndex.ofAll (dataLabels data)
    ([pre, main, post].flatMap Phase.numbered))
  pure { pre, main, post, data, index }

/-- Bind the operands of all phases. -/
def link (program : Program) : Action Generated := do
  let pre ← linkPhase program.index program.pre
  let main ← linkPhase program.index program.main
  let post ← linkPhase program.index program.post
  pure { seed := (← get).settings.seed, pre, main, post, data := program.data,
         globals := program.index.globals }

end Session

namespace Template

variable {ε : Type}

/-- The main phase of a template that has none. -/
def noMain : Act ε Unit :=
  Act.session (Action.remark .noMainBody)

/-- Run the three phases of a template on the session at hand. -/
def program (template : Template ε) : Act ε Program := do
  Act.session (do Action.remark (.generating (← get).settings.seed))
  let pre ← Act.runPhase .pre template.pre
  let main ← Act.runPhase .main template.main
  let post ← Act.runPhase .post template.post
  Act.session (Session.register pre main post)

/-- The whole of what a template stands for. -/
def generate (template : Template ε) : Act ε Generated := do
  let program ← template.program
  Act.session (Session.link program)

end Template
end TestProgram
