/-
# TestProgram.Attribute -- free-form attributes

An attribute is a scalar, a list or a table of attributes.  Blocks, calls and
options carry tables of them.  `layered` lays one table over another: what stands
only in one of them stays, where both hold a table the two are laid over each
other key by key, and everything else is replaced by the upper one.
-/
import TestProgram.KeyMap
import TestProgram.Scalar
import TestProgram.Text.Quoted

namespace TestProgram

set_option autoImplicit false

inductive Attribute
  | boolean (flag : Bool)
  | integer (number : Int)
  | text (content : String)
  | list (items : List Attribute)
  | map (entries : List (String × Attribute))

abbrev Attributes := KeyMap Attribute

namespace Attribute

def ofScalar : Scalar → Attribute
  | .boolean flag => .boolean flag
  | .integer number => .integer number
  | .text content => .text content

def shape : Attribute → Shape
  | .boolean _ => .boolean
  | .integer _ => .integer
  | .text _ => .string
  | .list _ => .list
  | .map _ => .map

def scalar? : Attribute → Option Scalar
  | .boolean flag => some (.boolean flag)
  | .integer number => some (.integer number)
  | .text content => some (.text content)
  | _ => none

def integer? : Attribute → Option Int
  | .integer number => some number
  | _ => none

def text? : Attribute → Option String
  | .text content => some content
  | _ => none

def map? : Attribute → Option Attributes
  | .map entries => some entries
  | _ => none

/-! ## Written form -/

mutual

/-- Texts are quoted, lists stand in brackets and tables in braces. -/
def render : Attribute → String
  | .boolean flag => (Scalar.boolean flag).render
  | .integer number => (Scalar.integer number).render
  | .text content => Text.quoted content
  | .list items => "[" ++ Text.commas (renderItems items) ++ "]"
  | .map entries => "\x7b" ++ Text.commas (renderEntries entries) ++ "\x7d"

def renderItems : List Attribute → List String
  | [] => []
  | item :: rest => render item :: renderItems rest

def renderEntries : List (String × Attribute) → List String
  | [] => []
  | (key, value) :: rest => (key ++ " = " ++ render value) :: renderEntries rest

end

/-! ## Laying tables over each other -/

mutual

/-- The value left at a key that held `lower` when `upper` is laid over it. -/
def replaced (lower : Option Attribute) : Attribute → Attribute
  | .map upper =>
      match lower with
      | some (.map entries) => .map (layer entries upper)
      | _ => .map upper
  | upper => upper

def layer (lower : List (String × Attribute)) :
    List (String × Attribute) → List (String × Attribute)
  | [] => lower
  | (key, value) :: rest =>
      layer (KeyMap.insert lower key (replaced (KeyMap.find? lower key) value)) rest

end

end Attribute

def Attributes.layered (lower upper : Attributes) : Attributes :=
  Attribute.layer lower upper

def Attributes.render (attributes : Attributes) : String :=
  (Attribute.map attributes).render

end TestProgram
