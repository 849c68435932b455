/-
# TestProgram.Data.Desk -- writing data

The desk is the data store together with what generation needs, the random source
and the journal.  The operations of the store are done here with their remarks, and
the statements of a data region write directives into the section that is open.
-/
import TestProgram.Call
import TestProgram.Data.Store
import TestProgram.Engine

namespace TestProgram

set_option autoImplicit false

structure DataDesk where
  store : DataStore
  engine : Engine

abbrev DataAction (α : Type) := ExceptT Fault (StateM DataDesk) α

namespace DataDesk

def remark (remark : Remark) : DataAction Unit :=
  modify (fun desk =>
    { desk with engine := { desk.engine with journal := desk.engine.journal ++ [remark] } })

/-- Put the outcome of an operation of the store in its place. -/
def update (change : DataStore → Except Fault DataStore) : DataAction Unit := fun desk =>
  match change desk.store with
  | .ok store => (.ok (), { desk with store })
  | .error fault => (.error fault, desk)

/-- The outcome of an action as a value. -/
def attempt {α : Type} (body : DataAction α) : DataAction (Except Fault α) := fun desk =>
  let (outcome, desk) := body desk
  (.ok outcome, desk)

/-! ## Configuration -/

def beginConfig (config : DataConfig) : DataAction Unit := do
  update (fun store => store.beginConfig config)
  remark (.configuringData config.target config.itemSize)

def endConfig : DataAction Unit :=
  modify (fun desk => { desk with store := desk.store.endConfig })

def define (definition : DataDefinition) : DataAction Unit := do
  let earlier := (← get).store.definition? definition.id
  update (fun store => store.define definition)
  match earlier with
  | some earlier => remark (.shadowed definition.id earlier.kindName)
  | none => pure ()

/-! ## Regions -/

def enter (region : DataRegion) (memory : Option MemorySection) : DataAction Unit := do
  let before := (← get).store
  update (fun store => store.enter region memory)
  match before.depth, before.config with
  | 0, some config => remark (.openingData config.target)
  | _, _ => pure ()

def exit : DataAction Unit := do
  let before := (← get).store
  update DataStore.exit
  match before.depth, before.current with
  | 1, some region => remark (.closingData region.directives.length)
  | _, _ => pure ()

def takeSections : DataAction (List DataSection) := fun desk =>
  let (sections, store) := desk.store.takeSections
  (.ok sections, { desk with store })

/-! ## Statements of a region -/

def push (directive : DataDirective) : DataAction Unit :=
  update (fun store => store.push directive)

/-- The value of an argument; labels and addresses have none. -/
def drawValue : Argument → DataAction Scalar
  | .value scalar => pure scalar
  | .random distribution => draw distribution.sample
  | .range lowest highest => do
      let number ← draw (Draw.between lowest highest)
      pure (.integer number)
  | .label _ | .address _ => throw (Fault.of .dataValueShape)
where
  draw {α : Type} (sampler : Distribution.Sampler α) : DataAction α := fun desk =>
    let (outcome, engine) := Generation.sample sampler desk.engine
    (outcome, { desk with engine })

/-- Write values through a definition. -/
def emit (id : String) (values : List Argument) : DataAction Unit := do
  match (← get).store.definition? id with
  | none => throw (Fault.of (.unknownDefinition id))
  | some definition =>
      let values ← values.mapM drawValue
      match definition.directive values with
      | .ok directive => push directive
      | .error fault => throw fault

def origin (origin : Origin) : DataAction Unit :=
  push origin.directive

def align (items : Nat) : DataAction Unit := do
  match (← get).store.alignment items with
  | .ok directive => push directive
  | .error fault => throw fault

def label (name : String) (isGlobal : Bool) : DataAction Unit :=
  push (.label { name := .named name, isGlobal, scope := BlockId.root })

def text (content : String) : DataAction Unit :=
  push (.text content)

def comment (content : String) : DataAction Unit :=
  push (.comment content)

end DataDesk
end TestProgram
