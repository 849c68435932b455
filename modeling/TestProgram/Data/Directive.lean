/-
# TestProgram.Data.Directive -- data sections and what stands in them

A template defines types, spaces and strings once and uses them by their names in
data regions.  An outermost region becomes a data section, a list of directives.
-/
import TestProgram.Attribute
import TestProgram.Fault
import TestProgram.Label
import TestProgram.MemorySection

namespace TestProgram

set_option autoImplicit false

/-- The bits of an item when a configuration does not say. -/
def defaultItemSize : Nat := 8

structure DataConfig where
  target : String
  itemSize : Nat := defaultItemSize
deriving DecidableEq, Repr

/-- A data type of the model, such as `card(32)`. -/
structure DataType where
  name : String
  arguments : List Int := []
deriving DecidableEq, Repr

def DataType.render (type : DataType) : String :=
  if type.arguments.isEmpty then type.name
  else type.name ++ "(" ++ Text.commas (type.arguments.map toString) ++ ")"

/-- What a definition writes when it is used. -/
inductive DataForm
  | values (type : DataType)
  | space (fill : Int)
  | strings (zeroTerminated : Bool)
deriving DecidableEq, Repr

structure DataDefinition where
  id : String
  text : String
  form : DataForm
deriving DecidableEq, Repr

def DataDefinition.kindName (definition : DataDefinition) : String :=
  match definition.form with
  | .values _ => "type"
  | .space _ => "space"
  | .strings _ => "string"

inductive DataDirective
  | values (text : String) (type : DataType) (values : List Scalar)
  | space (text : String) (fill : Int) (length : Nat)
  | strings (text : String) (zeroTerminated : Bool) (strings : List String)
  | label (label : Label)
  | text (content : String)
  | comment (content : String)
  | origin (address : Nat)
  | relativeOrigin (delta : Int)
  | align (items bytes : Nat)
deriving DecidableEq, Repr

structure DataSection where
  target : String
  isGlobal : Bool := false
  inSeparateFile : Bool := false
  memory : Option MemorySection := none
  directives : List DataDirective := []
deriving DecidableEq, Repr

/-- The labels of a section with the numbers of their directives. -/
def DataSection.labels (region : DataSection) : List (Nat × Label) :=
  region.directives.zipIdx.filterMap (fun
    | (.label label, index) => some (index, label)
    | _ => none)

/-! ## Origins -/

inductive Origin
  | absolute (address : Nat)
  | relative (delta : Int)
deriving DecidableEq, Repr

namespace Origin

/-- An integer is an address, a table with the one key `delta` a distance. -/
def ofAttribute : Attribute → Except Fault Origin
  | .integer address =>
      if address < 0 then .error (Fault.of (.originNegative address))
      else .ok (.absolute address.toNat)
  | .map [("delta", .integer delta)] => .ok (.relative delta)
  | found => .error (Fault.of (.originShape found))

def render : Origin → String
  | .absolute address => s!"Absolute({address})"
  | .relative delta => s!"Relative({delta})"

def directive : Origin → DataDirective
  | .absolute address => .origin address
  | .relative delta => .relativeOrigin delta

end Origin

/-! ## Using a definition -/

/-- The texts of some values, or the shape of the first that is none. -/
def strings? : List Scalar → Except Shape (List String)
  | [] => .ok []
  | .text content :: rest => (strings? rest).map (content :: ·)
  | other :: _ => .error other.shape

/-- The directive that a definition prescribes for some values: any values for a type,
one length for a space, texts for a string. -/
def DataDefinition.directive (definition : DataDefinition) (values : List Scalar) :
    Except Fault DataDirective :=
  match definition.form with
  | .values type => .ok (.values definition.text type values)
  | .space fill =>
      match values with
      | [.integer length] =>
          if length < 0 then .error (Fault.of (.notOneLength definition.id))
          else .ok (.space definition.text fill length.toNat)
      | _ => .error (Fault.of (.notOneLength definition.id))
  | .strings zeroTerminated =>
      match strings? values with
      | .ok texts => .ok (.strings definition.text zeroTerminated texts)
      | .error found => .error (Fault.of (.notStrings definition.id found))

end TestProgram
