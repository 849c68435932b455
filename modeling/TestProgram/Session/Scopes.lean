/-
# TestProgram.Session.Scopes -- attribute scopes and memory sections

Both enclose a body and end with it, whether it fails or not.  Attribute scopes
nest; memory sections do not.
-/
import TestProgram.Session.Basic

namespace TestProgram

set_option autoImplicit false

/-- Attributes that have a statement of their own. -/
inductive Flag
  | executed | nonexecuted | branches
deriving DecidableEq, Repr

namespace Flag

def name : Flag → String
  | .executed => "executed"
  | .nonexecuted => "nonexecuted"
  | .branches => "branches"

def attributes : Flag → Attributes
  | .executed => [("executed", .boolean true)]
  | .nonexecuted => [("executed", .boolean false)]
  | .branches => [("branches", .boolean true)]

end Flag

namespace Session

/-- Open an attribute scope; the result is the depth outside it. -/
def enterAttributes (attributes : Attributes) : Action Nat := fun session =>
  (.ok session.attributes.length,
    { session with attributes := attributes :: session.attributes })

/-- Close all attribute scopes above a depth. -/
def leaveAttributes (depth : Nat) : Action Unit := fun session =>
  (.ok (),
    { session with attributes := session.attributes.drop (session.attributes.length - depth) })

/-- Open a memory section; the result is the number of sections open outside it. -/
def enterSection (memory : MemorySection) (location : Location) : Action Nat :=
  Action.locating location do
    if memory.name.isEmpty then throw (Fault.of .unnamedSection)
    let session ← get
    match session.currentSection with
    | some outer => throw (Fault.of (.nestedSection memory.name outer.name))
    | none =>
        Action.remark (.enteringSection memory)
        modify (fun session => { session with sections := memory :: session.sections })
        pure session.sections.length

def leaveSection (depth : Nat) : Action Unit := fun session =>
  (.ok (), { session with sections := session.sections.drop (session.sections.length - depth) })

end Session

namespace Act

variable {ε : Type}

/-- A body whose calls all have these attributes too. -/
def withAttributes (attributes : Attributes) (body : Act ε Unit) : Act ε Unit := do
  let depth ← session (Session.enterAttributes attributes)
  let outcome ← attempt body
  session (Session.leaveAttributes depth)
  ofExcept outcome

/-- A body whose calls and data regions are placed in a memory section. -/
def inSection (memory : MemorySection) (location : Location) (body : Act ε Unit) :
    Act ε Unit := do
  let depth ← session (Session.enterSection memory location)
  let outcome ← attempt body
  session (Session.leaveSection depth)
  ofExcept (located location outcome)

end Act
end TestProgram
