/-
# TestProgram.TemplateFile.Basic -- templates written as files

A template file holds settings, a data configuration, named distributions and
situations, default situations, and the items of the three phases.  Items make the
same statements as a script; each knows the stretch of the file it was written in.
Values of which several shapes are allowed are kept as attributes, and their shape is
looked at when the item is run.
-/
import TestProgram.Call
import TestProgram.Session.Scopes
import TestProgram.Settings
import TestProgram.Toml.Value

namespace TestProgram

set_option autoImplicit false

namespace TemplateFile

open Toml (Span)

/-! ## Arguments -/

inductive FileArgument
  | value (scalar : Scalar)
  | random (lowest highest : Int)
  | distribution (name : String)
  | label (name : String)
  | numeric (index : Attribute) (forward : Bool)
  | address (kind : ReferenceKind) (level : Nat) (bits : List (Nat × Nat))

structure FileCall where
  name : String
  arguments : List FileArgument := []
  situation : Option String := none
  attributes : Attribute := .map []

/-! ## Items -/

inductive DataItem
  | origin (value : Attribute)
  | align (items : Nat)
  | label (name : String)
  | globalLabel (name : String)
  | text (content : String)
  | comment (content : String)
  | emit (id : String) (values : List FileArgument)
  | region (region : DataRegion) (items : List (Span × DataItem))

inductive Item
  | block (kind : BlockKind) (attributes : Attribute) (items : List (Span × Item))
  | call (call : FileCall)
  | label (name : String)
  | globalLabel (name : String)
  | weakLabel (name : String)
  | numericLabel (index : Attribute)
  | text (content : String)
  | comment (content : String)
  | flagged (flag : Flag) (items : List (Span × Item))
  | attributes (attributes : Attribute) (items : List (Span × Item))
  | data (region : DataRegion) (items : List (Span × DataItem))
  | inSection (memory : MemorySection) (items : List (Span × Item))

abbrev Items := List (Span × Item)

abbrev DataItems := List (Span × DataItem)

/-- The key that an item is written under. -/
def Item.key : Item → String
  | .block kind _ _ => kind.name
  | .call _ => "call"
  | .label _ => "label"
  | .globalLabel _ => "global_label"
  | .weakLabel _ => "weak"
  | .numericLabel _ => "numeric_label"
  | .text _ => "text"
  | .comment _ => "comment"
  | .flagged flag _ => flag.name
  | .attributes _ _ => "attributes"
  | .data _ _ => "data"
  | .inSection memory _ =>
      match memory.kind with
      | .named _ => "section"
      | .text => "section_text"
      | .data => "section_data"

/-- The items inside an item that holds some. -/
def Item.nested? : Item → Option Items
  | .block _ _ items | .flagged _ items | .attributes _ items | .inSection _ items => some items
  | _ => none

/-! ## Tables -/

structure FileRange where
  value : Attribute
  bias : Option Int := none

structure FileSituation where
  /-- The name of the situation, if it is not its key. -/
  name : Option String := none
  providesData : Bool := false
  attributes : Attribute := .map []

structure FileDefault where
  names : Attribute
  situation : String

structure FileData where
  config : DataConfig
  types : List DataDefinition := []
  spaces : List DataDefinition := []
  strings : List DataDefinition := []

def FileData.definitions (data : FileData) : List DataDefinition :=
  data.types ++ data.spaces ++ data.strings

end TemplateFile

open TemplateFile in
structure TemplateFile where
  settings : Option Settings := none
  data : Option FileData := none
  distributions : KeyMap (List FileRange) := []
  situations : KeyMap FileSituation := []
  defaults : List FileDefault := []
  pre : Items := []
  main : Items := []
  post : Items := []

/-- The phases of a file by their names. -/
def TemplateFile.phases (file : TemplateFile) : List (String × TemplateFile.Items) :=
  [("pre", file.pre), ("main", file.main), ("post", file.post)]

end TestProgram
