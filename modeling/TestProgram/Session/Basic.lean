/-
# TestProgram.Session.Basic -- the session a template is built in

A session holds everything that the statements of a template act on: the stack of
open blocks with the innermost first, the attribute scopes and memory sections in
force, the data, the strategies and default situations, and the phase the template
is in.

A template may remember things of its own between its statements.  `Studio ε` is a
session together with such a memory of type `ε`, and `Act ε` is what a template
does: a computation on both that may fail, where what was done before a failure
stays done.  `Act.attempt` turns a failure into a value, which is how the
statements that enclose others put things in order again.
-/
import TestProgram.BlockOptions
import TestProgram.Data.Desk
import TestProgram.Finalization
import TestProgram.LabelIndex
import TestProgram.Settings
import TestProgram.Strategy.Builtin
import TestProgram.Tree

namespace TestProgram

set_option autoImplicit false

/-- A block that is still being filled; its labels and outputs wait for the next call. -/
structure OpenBlock where
  id : BlockId
  kind : BlockKind
  options : BlockOptions := {}
  location : Option Location := none
  children : List (Tree Call) := []
  labels : List Label := []
  outputs : List Output := []

structure Session where
  settings : Settings := {}
  engine : Engine
  registry : Registry Call := Strategy.builtins
  defaults : DefaultSituations := []
  data : DataStore := {}
  blocks : List OpenBlock := []
  attributes : List Attributes := []
  sections : List MemorySection := []
  completed : Option (Block Call) := none
  lifecycle : Lifecycle := .created

namespace Session

def new (settings : Settings) : Session where
  settings := settings
  engine := Engine.ofSeed settings.seed
  data := { redefinition := settings.redefinition }

/-- The scope of labels and references made now. -/
def scope (session : Session) : BlockId :=
  match session.blocks with
  | [] => BlockId.root
  | innermost :: _ => innermost.id

def currentSection (session : Session) : Option MemorySection :=
  session.sections.head?

end Session

/-! ## Computations -/

/-- A computation on a session alone. -/
abbrev Action (α : Type) := ExceptT Fault (StateM Session) α

structure Studio (ε : Type) where
  session : Session
  memory : ε

/-- A computation of a template that remembers an `ε`. -/
abbrev Act (ε α : Type) := ExceptT Fault (StateM (Studio ε)) α

namespace Action

variable {α : Type}

def ofExcept (outcome : Except Fault α) : Action α := fun session => (outcome, session)

def remark (remark : Remark) : Action Unit :=
  modify (fun session =>
    { session with
      engine := { session.engine with journal := session.engine.journal ++ [remark] } })

def generation (body : Generation α) : Action α := fun session =>
  let (outcome, engine) := body session.engine
  (outcome, { session with engine })

def data (body : DataAction α) : Action α := fun session =>
  let (outcome, desk) := body { store := session.data, engine := session.engine }
  (outcome, { session with data := desk.store, engine := desk.engine })

/-- The same computation, with the location added to a fault. -/
def locating (location : Location) (body : Action α) : Action α := fun session =>
  let (outcome, session) := body session
  (located location outcome, session)

end Action

namespace Act

variable {ε α : Type}

def session (body : Action α) : Act ε α := fun studio =>
  let (outcome, session) := body studio.session
  (outcome, { studio with session })

def ofExcept (outcome : Except Fault α) : Act ε α := fun studio => (outcome, studio)

/-- The outcome of a computation as a value. -/
def attempt (body : Act ε α) : Act ε (Except Fault α) := fun studio =>
  let (outcome, studio) := body studio
  (.ok outcome, studio)

/-- The same computation, with the location added to a fault. -/
def locating (location : Location) (body : Act ε α) : Act ε α := fun studio =>
  let (outcome, studio) := body studio
  (located location outcome, studio)

end Act
end TestProgram
