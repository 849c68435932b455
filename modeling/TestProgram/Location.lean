/-
# TestProgram.Location -- where a statement was written

A statement stands at a line of a program that builds a template, or in a stretch
of bytes of a template file.
-/
namespace TestProgram

set_option autoImplicit false

inductive Location
  | caller (file : String) (line column : Nat)
  | span (file start stop : Nat)
deriving DecidableEq, Repr

namespace Location

def render : Location → String
  | .caller file line column => s!"{file}:{line}:{column}"
  | .span file start stop => s!"file #{file} bytes {start}..{stop}"

/-- Keep the location already known, unless it is a line and the new one a span. -/
def refine : Option Location → Location → Location
  | none, new => new
  | some (.caller _ _ _), .span file start stop => .span file start stop
  | some known, _ => known

end Location
end TestProgram
