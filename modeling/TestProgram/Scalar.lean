/-
# TestProgram.Scalar -- single values

A scalar is what an operand, a data word or a distribution yields: a flag, an
integer or a text.  `Shape` names the five shapes a written value can have; a
scalar has one of the first three.
-/
namespace TestProgram

set_option autoImplicit false

inductive Shape
  | boolean | integer | string | list | map
deriving DecidableEq, Repr

def Shape.name : Shape → String
  | .boolean => "Boolean"
  | .integer => "Integer"
  | .string => "String"
  | .list => "List"
  | .map => "Map"

inductive Scalar
  | boolean (flag : Bool)
  | integer (number : Int)
  | text (content : String)
deriving DecidableEq, Repr

namespace Scalar

def shape : Scalar → Shape
  | .boolean _ => .boolean
  | .integer _ => .integer
  | .text _ => .string

def integer? : Scalar → Option Int
  | .integer number => some number
  | _ => none

def render : Scalar → String
  | .boolean flag => if flag then "true" else "false"
  | .integer number => toString number
  | .text content => content

end Scalar
end TestProgram
