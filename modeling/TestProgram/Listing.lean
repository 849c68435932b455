/-
# TestProgram.Listing -- generated templates as text

The listing of a template is what an assembler is given: the seed, the three
phases, then the data sections.  Free texts and labels stand on lines of their own
before their instruction.  A line `// section` or `// end of section` stands where
the memory section of the instructions changes.  `Tree.outline` shows a
composition tree, a node a line.
-/
import TestProgram.Template

namespace TestProgram

set_option autoImplicit false

def indent : String := "    "

def line (content : String) : String :=
  content ++ "\n"

def Output.line : Output → String
  | .text content => TestProgram.line (indent ++ content)
  | .comment content => TestProgram.line (indent ++ "// " ++ content)

/-- A bound label operand is printed as the label it is bound to, a numeric one with its
direction; an unbound one as it was written. -/
def Operand.render : Operand → String
  | .value scalar => scalar.render
  | .label (.numeric _ forward _) (some bound) =>
      bound.rendered ++ LabelReference.direction forward
  | .label (.named _ _) (some bound) => bound.rendered
  | .label reference none => reference.render
  | .address reference => reference.render

namespace Instruction

def labelLines (instruction : Instruction) : String :=
  String.join (instruction.labels.map (fun placed => line (placed.rendered ++ ":")))

/-- The name and the operands, the first of them after a blank. -/
def statement (instruction : Instruction) : String :=
  if instruction.operands.isEmpty then instruction.name
  else instruction.name ++ " " ++ Text.commas (instruction.operands.map Operand.render)

def situationNote (instruction : Instruction) : String :=
  match instruction.situation with
  | some situation => " // " ++ situation.render
  | none => ""

def render (instruction : Instruction) : String :=
  String.join (instruction.outputs.map Output.line) ++ instruction.labelLines
    ++ (if instruction.isExecutable then
          line (indent ++ instruction.statement ++ instruction.situationNote)
        else "")

end Instruction

/-- The line that tells of a change of section. -/
def sectionLine : Option MemorySection → String
  | some memory => line ("// section " ++ memory.render)
  | none => line "// end of section"

/-- The instructions after a place where the section `current` is in force. -/
def renderFrom : Option MemorySection → Sequence → String
  | _, [] => ""
  | current, instruction :: rest =>
      (if instruction.memory = current then "" else sectionLine instruction.memory)
        ++ instruction.render ++ renderFrom instruction.memory rest

def Phase.render (phase : Phase) : String :=
  line ("// " ++ phase.kind.name ++ " phase")
    ++ String.join (phase.sequences.zipIdx.map (fun (instructions, number) =>
        (if 1 < phase.sequences.length then line s!"// sequence {number}" else "")
          ++ renderFrom none instructions))

/-! ## Data -/

def DataDirective.render : DataDirective → String
  | .label declared => line (declared.name.render ++ ":")
  | .values name _ scalars =>
      line (indent ++ name ++ " " ++ Text.commas (scalars.map Scalar.render))
  | .space name fill length => line (indent ++ name ++ s!" {length}, {fill}")
  | .strings name _ texts =>
      line (indent ++ name ++ " " ++ Text.commas (texts.map Text.quoted))
  | .text written => line (indent ++ written)
  | .comment written => line (indent ++ "// " ++ written)
  | .origin address => line (indent ++ ".org " ++ Text.address address)
  | .relativeOrigin delta => line (indent ++ ".org " ++ Text.signed delta)
  | .align items bytes => line (indent ++ s!".align {items} // {bytes} byte(s)")

def DataSection.headline (region : DataSection) : String :=
  "// data " ++ region.target
    ++ (if region.isGlobal then " global" else "")
    ++ (if region.inSeparateFile then " separate-file" else "")
    ++ (match region.memory with
        | some memory => " in section " ++ memory.render
        | none => "")

def DataSection.render (region : DataSection) : String :=
  line region.headline ++ String.join (region.directives.map DataDirective.render)

def Generated.render (generated : Generated) : String :=
  line s!"// seed {generated.seed}"
    ++ String.join (generated.phases.map Phase.render)
    ++ String.join (generated.data.map DataSection.render)

/-! ## Composition trees -/

namespace Tree

def pad (depth : Nat) : String :=
  String.join (List.replicate depth "  ")

def headline (info : BlockInfo) : String :=
  info.kind.name ++ " " ++ info.id.render
    ++ String.join (info.strategies.attached.map (fun (option, name) =>
        " " ++ option.name ++ "=" ++ name))

def callOutline (depth : Nat) (call : Call) : String :=
  String.join (call.labels.map (fun label => line (pad depth ++ label.name.render ++ ":")))
    ++ (if call.isExecutable then
          line (pad depth ++ call.name ++ " "
            ++ Text.commas (call.arguments.map Argument.render))
        else "")

mutual

def outline (depth : Nat) : Tree Call → String
  | .leaf call => callOutline depth call
  | .block info children =>
      line (pad depth ++ headline info) ++ outlineAll (depth + 1) children

def outlineAll (depth : Nat) : List (Tree Call) → String
  | [] => ""
  | child :: rest => outline depth child ++ outlineAll depth rest

end

end Tree

def Block.outline (block : Block Call) : String :=
  block.toTree.outline 0

end TestProgram
