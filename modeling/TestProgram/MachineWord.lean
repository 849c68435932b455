/-
# TestProgram.MachineWord -- the sizes of words

A short word has 32 bits and a long one 64.  Numbers are drawn as words, and most of
those in a template must fit one: seeds, weights, integers, levels, alignments.
-/
namespace TestProgram.MachineWord

set_option autoImplicit false

/-- The first number that is no short word. -/
def short : Nat := 0x100000000

/-- The first number that is no long word. -/
def long : Nat := 0x10000000000000000

/-- Whether an integer is a long word with a sign. -/
def isSigned (number : Int) : Bool :=
  decide (-0x8000000000000000 ≤ number ∧ number < 0x8000000000000000)

/-- The long word with a sign that an integer is congruent to. -/
def signed (number : Int) : Int := number.bmod long

end TestProgram.MachineWord
