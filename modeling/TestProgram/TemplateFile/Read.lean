/-
# TestProgram.TemplateFile.Read -- reading template and settings files

A file is read in two steps: as a TOML document, and the document as the records it
is to hold.  A key that no record has, a missing field without a default, a value of
another shape or out of its range, and a number with a fraction anywhere make the
file malformed as a whole.
-/
import TestProgram.TemplateFile.Basic
import TestProgram.Toml.Document
import TestProgram.Toml.Fields

namespace TestProgram

set_option autoImplicit false

open Toml (Value Span withDefault optional required)

namespace TemplateFile

/-! ## Attributes and scalars -/

mutual

def readAttribute : Value → Option Attribute
  | .boolean flag => some (.boolean flag)
  | .integer number => some (.integer number)
  | .float => none
  | .text content => some (.text content)
  | .array _ elements => (readAttributes elements).map .list
  | .table _ entries => (readEntries entries).map .map

def readAttributes : List Value → Option (List Attribute)
  | [] => some []
  | element :: rest => do
      let first ← readAttribute element
      let others ← readAttributes rest
      some (first :: others)

def readEntries : List (String × Value) → Option Attributes
  | [] => some []
  | (name, value) :: rest => do
      let first ← readAttribute value
      let others ← readEntries rest
      some (others.insert name first)

end

def readScalar (value : Value) : Option Scalar := do
  (← readAttribute value).scalar?

/-- A table of values by key. -/
def readTable {α : Type} (read : Value → Option α) (value : Value) : Option (KeyMap α) := do
  let entries ← (← value.entries?).mapM (fun (name, value) => do some (name, ← read value))
  some (KeyMap.ofList entries)

/-! ## Settings -/

def redefinitionNamed? : String → Option Redefinition
  | "reject" => some .reject
  | "shadow" => some .shadow
  | _ => none

/-- A choice is its name, or a table from its name to nothing. -/
def readRedefinition : Value → Option Redefinition
  | .text name => redefinitionNamed? name
  | .table _ [(name, .table _ [])] | .table _ [(name, .array _ [])] => redefinitionNamed? name
  | _ => none

def settingsFields : List String :=
  ["seed", "redefinition", "options", "revision", "revisions"]

def readSettings (value : Value) : Option Settings := do
  match ← value.fields? settingsFields with
  | [seed, redefinition, options, revision, revisions] =>
      some
        { seed := ← withDefault Value.long? 0 seed
          redefinition := ← withDefault readRedefinition .reject redefinition
          options := ← withDefault (readTable readAttribute) [] options
          revision := ← optional Value.text? revision
          revisions := ← withDefault Value.texts? [] revisions }
  | _ => none

def readLayer (value : Value) : Option SettingsLayer := do
  match ← value.fields? settingsFields with
  | [seed, redefinition, options, revision, revisions] =>
      some
        { seed := ← optional Value.long? seed
          redefinition := ← optional readRedefinition redefinition
          options := ← withDefault (readTable readAttribute) [] options
          revision := ← optional Value.text? revision
          revisions := ← optional Value.texts? revisions }
  | _ => none

/-! ## Arguments -/

def readIntegerPair (value : Value) : Option (Int × Int) := do
  match ← Value.list? Value.integer? value with
  | [first, second] => some (first, second)
  | _ => none

def readBits (value : Value) : Option (Nat × Nat) := do
  match ← Value.list? Value.short? value with
  | [low, high] => some (low, high)
  | _ => none

def readAddress (kind : ReferenceKind) (value : Value) : Option FileArgument := do
  match ← value.exactFields? ["level", "bits"] with
  | [level, bits] =>
      some (.address kind (← withDefault Value.short? 0 level)
        (← withDefault (Value.list? readBits) [] bits))
  | _ => none

/-- A table with one key, which says what the argument refers to. -/
def readReference : List (String × Value) → Option FileArgument
  | [("rand", value)] => do
      let (lowest, highest) ← readIntegerPair value
      some (.random lowest highest)
  | [("dist", value)] => do some (.distribution (← value.text?))
  | [("label", value)] => do some (.label (← value.text?))
  | [("label_f", value)] => do some (.numeric (← readAttribute value) true)
  | [("label_b", value)] => do some (.numeric (← readAttribute value) false)
  | [("address", value)] => readAddress .address value
  | [("entry", value)] => readAddress .entry value
  | _ => none

def readArgument : Value → Option FileArgument
  | .table _ entries => readReference entries
  | value => do some (.value (← readScalar value))

def readArguments : Value → Option (List FileArgument) := Value.list? readArgument

def readCall (value : Value) : Option FileCall := do
  match ← value.fields? ["name", "args", "situation", "attrs"] with
  | [name, arguments, situation, attributes] =>
      some
        { name := ← required Value.text? name
          arguments := ← withDefault readArguments [] arguments
          situation := ← optional Value.text? situation
          attributes := ← withDefault readAttribute (.map []) attributes }
  | _ => none

/-! ## Items

The records that hold items hold them in their last field, so what stands before the
items is read by itself, and the items are found by key or by place. -/

def readAttributesField (value : Value) : Option Attribute := do
  match ← value.fields? ["attrs", "items"] with
  | [attributes, _] => withDefault readAttribute (.map []) attributes
  | _ => none

def readRequiredAttributes (value : Value) : Option Attribute := do
  match ← value.fields? ["attrs", "items"] with
  | [attributes, _] => required readAttribute attributes
  | _ => none

def readRegion (value : Value) : Option DataRegion := do
  match ← value.fields? ["global", "separate_file", "items"] with
  | [isGlobal, inSeparateFile, _] =>
      some
        { isGlobal := ← withDefault Value.boolean? false isGlobal
          inSeparateFile := ← withDefault Value.boolean? false inSeparateFile }
  | _ => none

def readSection (kind : SectionKind) (value : Value) : Option MemorySection := do
  match ← value.fields? ["pa", "va", "args", "items"] with
  | [physical, virtual, arguments, _] =>
      some
        { kind
          physical := ← required Value.long? physical
          virtual := ← required Value.long? virtual
          arguments := ← optional Value.text? arguments }
  | _ => none

def readNamedSection (value : Value) : Option MemorySection := do
  match ← value.fields? ["name", "pa", "va", "args", "items"] with
  | [name, physical, virtual, arguments, _] =>
      some
        { kind := .named (← required Value.text? name)
          physical := ← required Value.long? physical
          virtual := ← required Value.long? virtual
          arguments := ← optional Value.text? arguments }
  | _ => none

def readEmit (value : Value) : Option DataItem := do
  match ← value.fields? ["name", "values"] with
  | [name, values] =>
      some (.emit (← required Value.text? name) (← withDefault readArguments [] values))
  | _ => none

mutual

def readDataItem : List (String × Value) → Option DataItem
  | [(key, value)] =>
      match key with
      | "org" => do some (.origin (← readAttribute value))
      | "align" => do some (.align (← value.long?))
      | "label" => do some (.label (← value.text?))
      | "global_label" => do some (.globalLabel (← value.text?))
      | "text" => do some (.text (← value.text?))
      | "comment" => do some (.comment (← value.text?))
      | "emit" => readEmit value
      | "data" => do some (.region (← readRegion value) (← dataItemsOf 2 value))
      | _ => none
  | _ => none

/-- The data items of a record in whose array form they have this place. -/
def dataItemsOf (place : Nat) : Value → Option DataItems
  | .table _ entries => dataItemsUnder entries
  | .array _ elements => dataItemsAt place elements
  | _ => none

def dataItemsUnder : List (String × Value) → Option DataItems
  | [] => some []
  | (key, value) :: rest => if key = "items" then dataItemList value else dataItemsUnder rest

def dataItemsAt : Nat → List Value → Option DataItems
  | _, [] => some []
  | 0, value :: _ => dataItemList value
  | place + 1, _ :: rest => dataItemsAt place rest

def dataItemList : Value → Option DataItems
  | .array _ elements => readDataItems elements
  | _ => none

def readDataItems : List Value → Option DataItems
  | [] => some []
  | .table span entries :: rest => do
      let first ← readDataItem entries
      let others ← readDataItems rest
      some ((span, first) :: others)
  | _ => none

end

mutual

def readItem : List (String × Value) → Option Item
  | [(key, value)] =>
      match key with
      | "sequence" => do
          some (.block .sequence (← readAttributesField value) (← itemsOf 1 value))
      | "atomic" => do some (.block .atomic (← readAttributesField value) (← itemsOf 1 value))
      | "iterate" => do some (.block .iterate (← readAttributesField value) (← itemsOf 1 value))
      | "block" => do some (.block .free (← readAttributesField value) (← itemsOf 1 value))
      | "call" => do some (.call (← readCall value))
      | "label" => do some (.label (← value.text?))
      | "global_label" => do some (.globalLabel (← value.text?))
      | "weak" => do some (.weakLabel (← value.text?))
      | "numeric_label" => do some (.numericLabel (← readAttribute value))
      | "text" => do some (.text (← value.text?))
      | "comment" => do some (.comment (← value.text?))
      | "executed" => do
          let _ ← value.fields? ["items"]
          some (.flagged .executed (← itemsOf 0 value))
      | "nonexecuted" => do
          let _ ← value.fields? ["items"]
          some (.flagged .nonexecuted (← itemsOf 0 value))
      | "branches" => do
          let _ ← value.fields? ["items"]
          some (.flagged .branches (← itemsOf 0 value))
      | "attributes" => do
          some (.attributes (← readRequiredAttributes value) (← itemsOf 1 value))
      | "data" => do some (.data (← readRegion value) (← dataItemsOf 2 value))
      | "section" => do some (.inSection (← readNamedSection value) (← itemsOf 4 value))
      | "section_text" => do some (.inSection (← readSection .text value) (← itemsOf 3 value))
      | "section_data" => do some (.inSection (← readSection .data value) (← itemsOf 3 value))
      | _ => none
  | _ => none

/-- The items of a record in whose array form they have this place. -/
def itemsOf (place : Nat) : Value → Option Items
  | .table _ entries => itemsUnder entries
  | .array _ elements => itemsAt place elements
  | _ => none

def itemsUnder : List (String × Value) → Option Items
  | [] => some []
  | (key, value) :: rest => if key = "items" then itemList value else itemsUnder rest

def itemsAt : Nat → List Value → Option Items
  | _, [] => some []
  | 0, value :: _ => itemList value
  | place + 1, _ :: rest => itemsAt place rest

def itemList : Value → Option Items
  | .array _ elements => readItems elements
  | _ => none

def readItems : List Value → Option Items
  | [] => some []
  | .table span entries :: rest => do
      let first ← readItem entries
      let others ← readItems rest
      some ((span, first) :: others)
  | _ => none

end

/-- The items of a phase. -/
def readPhase (value : Value) : Option Items := do
  let _ ← value.fields? ["items"]
  itemsOf 0 value

/-! ## Tables of a template file -/

def readRange (value : Value) : Option FileRange := do
  match ← value.fields? ["value", "bias"] with
  | [held, bias] =>
      some { value := ← required readAttribute held, bias := ← optional Value.integer? bias }
  | _ => none

def readSituation (value : Value) : Option FileSituation := do
  match ← value.fields? ["name", "testdata", "attrs"] with
  | [name, providesData, attributes] =>
      some
        { name := ← optional Value.text? name
          providesData := ← withDefault Value.boolean? false providesData
          attributes := ← withDefault readAttribute (.map []) attributes }
  | _ => none

def readDefault (value : Value) : Option FileDefault := do
  match ← value.fields? ["names", "situation"] with
  | [names, situation] =>
      some
        { names := ← required readAttribute names
          situation := ← required Value.text? situation }
  | _ => none

def readDataType (value : Value) : Option DataType := do
  match ← value.fields? ["name", "args"] with
  | [name, arguments] =>
      some
        { name := ← required Value.text? name
          arguments := ← withDefault (Value.list? Value.integer?) [] arguments }
  | _ => none

/-- A definition whose third field says what it writes. -/
def readDefinition (field : String) (form : Option Value → Option DataForm) (value : Value) :
    Option DataDefinition := do
  match ← value.fields? ["id", "text", field] with
  | [id, text, third] =>
      some
        { id := ← required Value.text? id
          text := ← required Value.text? text
          form := ← form third }
  | _ => none

def readTypes : Value → Option (List DataDefinition) :=
  Value.list? (readDefinition "type" (fun third => do
    some (.values (← required readDataType third))))

def readSpaces : Value → Option (List DataDefinition) :=
  Value.list? (readDefinition "fill_with"
    (fun third => do some (.space (← withDefault Value.integer? 0 third))))

def readStrings : Value → Option (List DataDefinition) :=
  Value.list? (readDefinition "zero_term"
    (fun third => do some (.strings (← withDefault Value.boolean? false third))))

def readData (value : Value) : Option FileData := do
  match ← value.fields? ["target", "item_size", "types", "spaces", "strings"] with
  | [target, itemSize, types, spaces, strings] =>
      some
        { config :=
            { target := ← required Value.text? target
              itemSize := ← withDefault Value.short? defaultItemSize itemSize }
          types := ← withDefault readTypes [] types
          spaces := ← withDefault readSpaces [] spaces
          strings := ← withDefault readStrings [] strings }
  | _ => none

def readFile (value : Value) : Option TemplateFile := do
  match ← value.fields? ["settings", "data", "distributions", "situations",
      "default_situations", "pre", "main", "post"] with
  | [settings, data, distributions, situations, defaults, pre, main, post] =>
      some
        { settings := ← optional readSettings settings
          data := ← optional readData data
          distributions := ← withDefault (readTable (Value.list? readRange)) [] distributions
          situations := ← withDefault (readTable readSituation) [] situations
          defaults := ← withDefault (Value.list? readDefault) [] defaults
          pre := ← withDefault readPhase [] pre
          main := ← withDefault readPhase [] main
          post := ← withDefault readPhase [] post }
  | _ => none

/-- The template file that a text stands for. -/
def parse (source : String) : Except Fault TemplateFile :=
  match (Toml.read? source).bind readFile with
  | some file => .ok file
  | none => .error (Fault.of .malformedTemplate)

end TemplateFile

namespace Settings

def parse (source : String) : Except Fault Settings :=
  match (Toml.read? source).bind TemplateFile.readSettings with
  | some settings => .ok settings
  | none => .error (Fault.of .malformedSettings)

/-- The settings with a settings file laid over them. -/
def overlayText (settings : Settings) (source : String) : Except Fault Settings :=
  match (Toml.read? source).bind TemplateFile.readLayer with
  | some layer => .ok (settings.overlay layer)
  | none => .error (Fault.of .malformedSettings)

end Settings
end TestProgram
