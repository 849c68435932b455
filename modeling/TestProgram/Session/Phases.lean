/-
# TestProgram.Session.Phases -- running the phases of a template

A phase is a sequence block around its body.  When the body has ended, the block is
closed, expanded, and each of its streams finalized.  A body that fails, or that
leaves blocks open, ends the phase and throws its blocks away; the session then
stays in that phase and no later one can start.
-/
import TestProgram.Expansion
import TestProgram.Session.Blocks

namespace TestProgram

set_option autoImplicit false

/-- A generated phase: its tree and the sequences made from it. -/
structure Phase where
  kind : PhaseKind
  block : Block Call
  sequences : List Sequence

namespace Session

def enterPhase (kind : PhaseKind) : Action Unit := fun session =>
  match session.lifecycle.enter kind with
  | some lifecycle => (.ok (), { session with lifecycle })
  | none => (.error (Fault.of (.phaseOutOfOrder kind session.lifecycle)), session)

def beginPhase (kind : PhaseKind) : Action Unit := do
  enterPhase kind
  let _ ← openBlock .sequence {} none
  pure ()

/-- Seal the block of a phase and take it out of the session. -/
def takePhaseBlock (kind : PhaseKind) : Action (Block Call) := do
  let _ ← closeBlock ⟨BlockId.root, 0⟩
  match (← get).completed with
  | some block =>
      modify (fun session => { session with completed := none })
      pure block
  | none => throw (Fault.of (.noPhaseBlock kind))

/-- The sequences that a sealed block stands for. -/
def generateSequences (block : Block Call) : Action (List Sequence) := do
  let registry := (← get).registry
  Action.generation do
    let streams ← Expansion.expand registry block.toTree
    streams.mapM finalize

/-- The end of a phase, given how its body ended. -/
def endPhase (kind : PhaseKind) : Except Fault Unit → Action Phase
  | .error fault => do
      modify (fun session => { session with blocks := [], attributes := [] })
      throw fault
  | .ok () => do
      let depth := (← get).blocks.length
      if depth ≠ 1 then
        modify (fun session => { session with blocks := [] })
        throw (Fault.of (.blocksLeftOpen (depth - 1) kind))
      let block ← takePhaseBlock kind
      let sequences ← generateSequences block
      Action.remark (.phaseGenerated kind sequences.length)
      pure { kind, block, sequences }

def finishLifecycle : Action Unit := fun session =>
  match session.lifecycle.finish with
  | some lifecycle => (.ok (), { session with lifecycle })
  | none => (.error (Fault.of (.finishOutOfOrder session.lifecycle)), session)

end Session

namespace Act

variable {ε : Type}

def runPhase (kind : PhaseKind) (body : Act ε Unit) : Act ε Phase := do
  session (Action.remark (.phaseStarted kind))
  session (Session.beginPhase kind)
  let outcome ← attempt body
  session (Session.endPhase kind outcome)

end Act
end TestProgram
