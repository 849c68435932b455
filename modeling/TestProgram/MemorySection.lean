/-
# TestProgram.MemorySection -- named stretches of memory

Code and data can be placed in a section with a physical and a virtual address.
-/
import TestProgram.Text.Decimal

namespace TestProgram

set_option autoImplicit false

inductive SectionKind
  | named (name : String)
  | text
  | data
deriving DecidableEq, Repr

structure MemorySection where
  kind : SectionKind
  physical : Nat
  virtual : Nat
  /-- Further text for the assembler, printed as it stands. -/
  arguments : Option String := none
deriving DecidableEq, Repr

namespace MemorySection

def name (memory : MemorySection) : String :=
  match memory.kind with
  | .named name => name
  | .text => ".text"
  | .data => ".data"

def render (memory : MemorySection) : String :=
  memory.name ++ " pa=" ++ Text.address memory.physical ++ " va=" ++ Text.address memory.virtual
    ++ (match memory.arguments with
        | some text => " " ++ text
        | none => "")

end MemorySection
end TestProgram
