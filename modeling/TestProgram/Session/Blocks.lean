/-
# TestProgram.Session.Blocks -- opening and closing blocks

Blocks close in the reverse order of their opening.  A block gets its id when it
opens, from the number of children its parent has by then, and takes over the
labels and outputs that wait in its parent.  When it closes, what still waits in
it becomes a placeholder at its end (`OpenBlock.flushed`).

`scopedBlock` opens a block, runs a body in it and closes it; a block whose body
fails is thrown away together with everything that was left open inside it.
-/
import TestProgram.Session.Basic

namespace TestProgram

set_option autoImplicit false

/-- What identifies an open block to the statement that closes it. -/
structure BlockHandle where
  id : BlockId
  depth : Nat
deriving DecidableEq, Repr

namespace OpenBlock

/-- The block with its waiting labels and outputs in a placeholder. -/
def flushed (block : OpenBlock) (memory : Option MemorySection) : OpenBlock :=
  if block.labels.isEmpty && block.outputs.isEmpty then block
  else
    let placeholder : Call :=
      { name := "", labels := block.labels, outputs := block.outputs, memory,
        location := block.location }
    { block with
      children := block.children ++ [.leaf placeholder], labels := [], outputs := [] }

def toBlock (block : OpenBlock) : Block Call where
  info :=
    { id := block.id, kind := block.kind, strategies := block.options.strategies,
      attributes := block.options.attributes, location := block.location }
  children := block.children

end OpenBlock

namespace Session

def openBlock (kind : BlockKind) (options : BlockOptions) (location : Option Location) :
    Action BlockHandle := fun session =>
  match session.blocks with
  | parent :: outer =>
      let id := parent.id.child parent.children.length
      let block : OpenBlock :=
        { id, kind, options, location, labels := parent.labels, outputs := parent.outputs }
      (.ok ⟨id, session.blocks.length⟩,
        { session with blocks := block :: { parent with labels := [], outputs := [] } :: outer })
  | [] =>
      if session.lifecycle.isRunning then
        (.ok ⟨BlockId.root, 0⟩,
          { session with blocks := [{ id := BlockId.root, kind, options, location }] })
      else (.error ((Fault.of (.blockOutsidePhase kind)).locate? location), session)

/-- Hang a sealed block into its parent, or keep it as the completed one. -/
def attach (block : Block Call) (session : Session) : Session :=
  match session.blocks with
  | parent :: outer =>
      { session with
        blocks := { parent with children := parent.children ++ [block.toTree] } :: outer }
  | [] => { session with completed := some block }

/-- The strategies of a block must fit its kind and be known. -/
def admissible (session : Session) (block : OpenBlock) : Except Fault Unit :=
  ((block.options.strategies.validate block.kind).bind
    (fun _ => session.registry.check block.options.strategies)).mapError
      (fun fault => fault.locate? block.location)

/-- Seal the innermost block, which must be the one the handle stands for.  A block that
is not admissible is gone all the same. -/
def closeBlock (handle : BlockHandle) : Action (Block Call) := fun session =>
  match session.blocks with
  | [] => (.error (Fault.of (.blockNotOpen handle.id)), session)
  | top :: outer =>
      if top.id = handle.id ∧ session.blocks.length = handle.depth + 1 then
        let block := top.flushed session.currentSection
        let session := { session with blocks := outer }
        match session.admissible block with
        | .error fault => (.error fault, session)
        | .ok () =>
            let sealed := block.toBlock
            let (_, session) :=
              Action.remark (.sealed block.kind block.id block.children.length) session
            (.ok sealed, session.attach sealed)
      else (.error (Fault.of (.innerBlockOpen handle.id top.id)), session)

/-- Close all blocks above a depth without sealing them. -/
def discardAbove (depth : Nat) (session : Session) : Session :=
  { session with blocks := session.blocks.drop (session.blocks.length - depth) }

/-- The end of a scoped block, given how its body ended. -/
def leaveBlock (handle : BlockHandle) (location : Location) (body : Except Fault Unit) :
    Action Unit := fun session =>
  match body with
  | .error fault => (.error (fault.locate location), session.discardAbove handle.depth)
  | .ok () =>
      let (outcome, session) := closeBlock handle session
      (outcome.map (fun _ => ()), session.discardAbove handle.depth)

end Session

namespace Act

variable {ε : Type}

def scopedBlock (kind : BlockKind) (options : BlockOptions) (location : Location)
    (body : Act ε Unit) : Act ε Unit := do
  let handle ← session (Session.openBlock kind options (some location))
  let outcome ← attempt body
  session (Session.leaveBlock handle location outcome)

end Act
end TestProgram
