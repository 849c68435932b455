/-
# TestProgram.Data.Store -- the data of a session

Data is configured once; after that regions can be entered, and a section is open
from the entry of the outermost region to its exit.  Every operation either yields
the store after it or fails, so a failure changes nothing.
-/
import TestProgram.Data.Directive
import TestProgram.Journal
import TestProgram.MachineWord

namespace TestProgram

set_option autoImplicit false

inductive DataState
  | unconfigured | configuring | configured
deriving DecidableEq, Repr

def DataState.tag : DataState → String
  | .unconfigured => "Unconfigured"
  | .configuring => "Configuring"
  | .configured => "Configured"

/-- What a second definition of a name does: fail, or replace the first. -/
inductive Redefinition
  | reject | shadow
deriving DecidableEq, Repr

def Redefinition.tag : Redefinition → String
  | .reject => "Reject"
  | .shadow => "Shadow"

/-- What an outermost region asks for; inner ones share its section. -/
structure DataRegion where
  isGlobal : Bool := false
  inSeparateFile : Bool := false
deriving DecidableEq, Repr

structure DataStore where
  state : DataState := .unconfigured
  config : Option DataConfig := none
  redefinition : Redefinition := .reject
  definitions : KeyMap DataDefinition := []
  depth : Nat := 0
  current : Option DataSection := none
  sections : List DataSection := []
  opened : Nat := 0
  closed : Nat := 0
deriving DecidableEq, Repr

namespace DataStore

def beginConfig (store : DataStore) (config : DataConfig) : Except Fault DataStore :=
  if store.state = .unconfigured then
    .ok { store with state := .configuring, config := some config }
  else .error (Fault.of .dataConfiguredTwice)

def endConfig (store : DataStore) : DataStore :=
  if store.state = .configuring then { store with state := .configured } else store

def definition? (store : DataStore) (id : String) : Option DataDefinition :=
  store.definitions.find? id

def define (store : DataStore) (definition : DataDefinition) : Except Fault DataStore :=
  match store.definition? definition.id, store.redefinition with
  | some earlier, .reject =>
      .error (Fault.of (.definedTwice definition.id earlier.kindName))
  | _, _ =>
      .ok { store with definitions := store.definitions.insert definition.id definition }

/-- Enter a region; an outermost one opens a section in the given memory. -/
def enter (store : DataStore) (region : DataRegion) (memory : Option MemorySection) :
    Except Fault DataStore :=
  match store.state, store.config with
  | .configured, some config =>
      if store.depth = 0 then
        .ok { store with
          depth := 1
          current := some { target := config.target, isGlobal := region.isGlobal,
                            inSeparateFile := region.inSeparateFile, memory }
          opened := store.opened + 1 }
      else .ok { store with depth := store.depth + 1 }
  | _, _ => .error (Fault.of .dataNotConfigured)

/-- Leave a region; leaving the outermost one closes its section. -/
def exit (store : DataStore) : Except Fault DataStore :=
  if store.depth = 0 then .error (Fault.of .noDataRegion)
  else if store.depth = 1 then
    .ok { store with
      depth := 0
      current := none
      sections := store.sections ++ store.current.toList
      closed := store.closed + 1 }
  else .ok { store with depth := store.depth - 1 }

def isOpen (store : DataStore) : Bool :=
  0 < store.depth

def push (store : DataStore) (directive : DataDirective) : Except Fault DataStore :=
  match store.current with
  | some region =>
      .ok { store with
        current := some { region with directives := region.directives ++ [directive] } }
  | none => .error (Fault.of .noDataRegion)

/-- The finished sections, and the store without them. -/
def takeSections (store : DataStore) : List DataSection × DataStore :=
  (store.sections, { store with sections := [] })

def itemSize (store : DataStore) : Nat :=
  store.config.elim defaultItemSize DataConfig.itemSize

/-- The alignment to some items; its bytes follow from the size of an item. -/
def alignment (store : DataStore) (items : Nat) : Except Fault DataDirective :=
  let bits := items * store.itemSize
  if bits < MachineWord.long then .ok (.align items ((bits + 7) / 8))
  else .error (Fault.of (.alignmentTooLarge items))

end DataStore
end TestProgram
