/-
# TestProgram.AttributeShape -- asking an attribute for a shape

Where a statement needs a scalar or a table and is given an attribute, `what` names
the thing that is needed in the fault.
-/
import TestProgram.Fault

namespace TestProgram.Attribute

set_option autoImplicit false

def toScalar (what : String) (value : Attribute) : Except Fault Scalar :=
  match value.scalar? with
  | some scalar => .ok scalar
  | none => .error (Fault.of (.notScalar what value.shape))

def toTable (what : String) (value : Attribute) : Except Fault Attributes :=
  match value.map? with
  | some entries => .ok entries
  | none => .error (Fault.of (.notTable what value.shape))

def toLabelIndex (value : Attribute) : Except Fault Int :=
  match value.integer? with
  | some index => .ok index
  | none => .error (Fault.of (.labelIndexShape value.shape))

/-- The name in a table whose one key `dist` holds a name. -/
def distributionName? : Attribute → Option String
  | .map [("dist", .text name)] => some name
  | _ => none

/-- One name or several. -/
def toNames : Attribute → Except Fault (List String)
  | .text name => .ok [name]
  | .list items => items.mapM (fun item =>
      match item.text? with
      | some name => .ok name
      | none => .error (Fault.of (.defaultNamesShape item.shape)))
  | value => .error (Fault.of (.defaultNamesShape value.shape))

end TestProgram.Attribute
