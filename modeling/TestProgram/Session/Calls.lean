/-
# TestProgram.Session.Calls -- calls, labels and texts

Labels and texts wait in the innermost block for the next call.  A call takes them
before its own, gets the attributes of all scopes in force with its own laid over
them, and the default situation and the current section where it brings none.
-/
import TestProgram.Session.Basic

namespace TestProgram

set_option autoImplicit false

namespace Session

/-- Change the innermost block; `what` names the statement that needs one. -/
def inBlock (what : String) (change : OpenBlock → OpenBlock) : Action Unit := fun session =>
  match session.blocks with
  | innermost :: outer => (.ok (), { session with blocks := change innermost :: outer })
  | [] => (.error (Fault.of (.outsideBlock what)), session)

/-- The attributes of all scopes in force, the innermost uppermost. -/
def scopedAttributes (session : Session) : Attributes :=
  session.attributes.foldr (fun scope outer => Attributes.layered outer scope) []

/-- A call with what the session adds to it. -/
def completeCall (session : Session) (call : Call) : Call :=
  { call with
    attributes := Attributes.layered session.scopedAttributes call.attributes
    situation := call.situation.or (session.defaults.find? call.name)
    memory := call.memory.or session.currentSection }

def OpenBlock.append (block : OpenBlock) (call : Call) : OpenBlock :=
  { block with
    children := block.children ++
      [.leaf { call with
        labels := block.labels ++ call.labels, outputs := block.outputs ++ call.outputs }]
    labels := []
    outputs := [] }

def addCall (call : Call) (location : Location) : Action Unit := fun session =>
  let location := call.location.getD location
  let call := session.completeCall { call with location := some location }
  Action.locating location
    (inBlock "instruction" (fun block => OpenBlock.append block call)) session

/-- Bind a situation to names, with a remark on each. -/
def bindDefaults (names : List String) (situation : Situation) : Action Unit := do
  names.forM (fun name => Action.remark (.defaultSituation name situation.name))
  modify (fun session => { session with defaults := session.defaults.bind names situation })

/-! ## Labels -/

def addLabel (label : Label) (what : String) : Action Unit :=
  inBlock what (fun block => { block with labels := block.labels ++ [label] })

def declareLabel (name : String) (location : Location) : Action Unit :=
  Action.locating location do
    addLabel { name := .named name, scope := (← get).scope } "label"

def declareGlobalLabel (name : String) (location : Location) : Action Unit :=
  Action.locating location do
    addLabel { name := .named name, isGlobal := true, scope := (← get).scope } "global_label"

/-- A label that gives way to any other of its name. -/
def declareWeakLabel (name : String) (location : Location) : Action Unit :=
  Action.locating location do
    addLabel { name := .named name, isWeak := true, scope := (← get).scope } "weak"

def declareNumericLabel (index : Int) (location : Location) : Action Unit :=
  Action.locating location do
    let slot ← Action.ofExcept (NumericSlot.ofInt index)
    addLabel { name := .numeric slot, scope := (← get).scope } "label"

/-! ## References -/

def labelReference (name : String) (session : Session) : LabelReference :=
  .named name session.scope

def numericReference (index : Int) (forward : Bool) (location : Location) (session : Session) :
    Except Fault LabelReference :=
  located location do
    let slot ← NumericSlot.ofInt index
    .ok (.numeric slot forward session.scope)

/-! ## Texts -/

def addText (content : String) (location : Location) : Action Unit :=
  Action.locating location
    (inBlock "text" (fun block => { block with outputs := block.outputs ++ [.text content] }))

def addComment (content : String) (location : Location) : Action Unit :=
  Action.locating location
    (inBlock "comment"
      (fun block => { block with outputs := block.outputs ++ [.comment content] }))

end Session
end TestProgram
