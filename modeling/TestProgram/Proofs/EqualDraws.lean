/-
# TestProgram.Proofs.EqualDraws -- what takes the same words, and what takes none

Composition and operands draw from one random source: when the streams of a phase are finalized,
the arguments of their calls take words, and the next phase is composed with those that come after.
How many are taken depends on the arguments that draw and on nothing else of a call
(`Call.drawsAlike_of_random`), so calls that draw alike one by one leave the source in the same
state, whatever they are called and however they are labelled (`finalizeAll_alike`).

A body that adds calls and nests them in blocks draws nothing itself and registers no strategies
(`Act.Abstains`): what a phase takes of the source is taken when it ends.
-/
import TestProgram.Proofs.Deeds
import TestProgram.Proofs.DrawnOperands
import TestProgram.Proofs.InStep
import TestProgram.Proofs.PhaseRuns

namespace TestProgram

set_option autoImplicit false

/-- Two calls whose arguments take the same words when they are settled, from any source. -/
def Call.DrawsAlike (call other : Call) : Prop :=
  ∀ random, (call.arguments.mapM Argument.settle random).2 =
    (other.arguments.mapM Argument.settle random).2

/-! ## Arguments that draw -/

section Finalizing

variable {calls others : List Call} {strong also_strong : List String}

theorem Call.DrawsAlike.settle {call other : Call} (draws : call.DrawsAlike other)
    {engine counterpart : Engine} (alike : Engine.Alike engine counterpart) :
    Engine.Alike (call.settle engine).2 (other.settle counterpart).2 := by
  have sources : engine.random = counterpart.random := alike
  rw [Call.settle_run, Call.settle_run, sources]
  exact draws counterpart.random

/-- Calls that draw alike one by one leave sources in the same state, whatever labels they have
and whatever was declared before. -/
theorem finalizeCalls_alike (paired : List.Forall₂ Call.DrawsAlike calls others) :
    ∀ {ledger also_ledger : Ledger} {engine counterpart after last : Engine}
      {sequence other : Sequence}, Engine.Alike engine counterpart →
      finalizeCalls strong ledger calls engine = (.ok sequence, after) →
      finalizeCalls also_strong also_ledger others counterpart = (.ok other, last) →
      Engine.Alike after last := by
  induction paired with
  | nil =>
      intro ledger also_ledger engine counterpart after last sequence other alike run also_run
      cases run
      cases also_run
      exact alike
  | cons here _ ih =>
      -- the ledgers may go apart, for they decide on labels only
      intro ledger also_ledger engine counterpart after last sequence other alike run also_run
      obtain ⟨_, middle, remarked, _, settled, quiet, later, _⟩ := finalizeCalls_cons_ok run
      obtain ⟨_, also_middle, also_remarked, _, also_settled, also_quiet, also_later, _⟩ :=
        finalizeCalls_cons_ok also_run
      have between : Engine.Alike middle also_middle := by
        have moved := here.settle alike
        rwa [settled, also_settled] at moved
      exact ih ((quiet.trans between).trans also_quiet.symm) later also_later

/-- Two streams whose calls draw alike one by one. -/
def Stream.DrawsAlike (stream other : Stream Call) : Prop :=
  List.Forall₂ Call.DrawsAlike stream.emissions other.emissions

theorem finalizeAll_alike {streams others : List (Stream Call)}
    (paired : List.Forall₂ Stream.DrawsAlike streams others) :
    ∀ {engine counterpart after last : Engine} {sequences made : List Sequence},
      Engine.Alike engine counterpart →
      streams.mapM finalize engine = (.ok sequences, after) →
      others.mapM finalize counterpart = (.ok made, last) → Engine.Alike after last := by
  induction paired with
  | nil =>
      intro engine counterpart after last sequences made alike run also_run
      rw [List.mapM_nil] at run also_run
      cases run
      cases also_run
      exact alike
  | cons here _ ih =>
      intro engine counterpart after last sequences made alike run also_run
      rw [List.mapM_cons] at run also_run
      obtain ⟨_, middle, first, run⟩ := Computation.bind_ok_iff.mp run
      obtain ⟨_, also_middle, also_first, also_run⟩ := Computation.bind_ok_iff.mp also_run
      obtain ⟨_, _, later, run⟩ := Computation.bind_ok_iff.mp run
      obtain ⟨_, _, also_later, also_run⟩ := Computation.bind_ok_iff.mp also_run
      cases run
      cases also_run
      exact ih (finalizeCalls_alike here alike first also_first) later also_later

end Finalizing

/-! ## Bodies that draw nothing -/

/-- The random source and the strategies are as they were. -/
structure Session.Unmoved (session after : Session) : Prop where
  random : after.engine.random = session.engine.random
  registry : after.registry = session.registry

namespace Session

theorem Unmoved.refl (session : Session) : session.Unmoved session := ⟨rfl, rfl⟩

theorem Unmoved.trans {first second third : Session} (here : first.Unmoved second)
    (there : second.Unmoved third) : first.Unmoved third :=
  ⟨there.random.trans here.random, there.registry.trans here.registry⟩

theorem openBlock_unmoved (kind : BlockKind) (options : BlockOptions)
    (location : Option Location) (session : Session) :
    session.Unmoved (openBlock kind options location session).2 := by
  obtain ⟨blocks, same⟩ := openBlock_frame kind options location session
  rw [same]
  exact ⟨rfl, rfl⟩

theorem beginPhase_unmoved (kind : PhaseKind) (session : Session) :
    session.Unmoved (beginPhase kind session).2 := by
  rw [beginPhase, Computation.bind_run, enterPhase]
  cases session.lifecycle.enter kind with
  | none => exact .refl session
  | some lifecycle =>
      have opens := openBlock_unmoved .sequence {} none { session with lifecycle }
      dsimp only
      rw [Computation.bind_run]
      rcases run : openBlock .sequence {} none { session with lifecycle } with ⟨_ | _, opened⟩
      · rw [run] at opens
        exact ⟨opens.random, opens.registry⟩
      · rw [run] at opens
        exact ⟨opens.random, opens.registry⟩

end Session

namespace Act

variable {ε α β : Type}

/-- The computation draws nothing and registers no strategies. -/
def Abstains (body : Act ε α) : Prop :=
  ∀ studio : Studio ε, studio.session.Unmoved (body studio).2.session

theorem abstains_session {action : Action α}
    (unmoved : ∀ session : Session, session.Unmoved (action session).2) :
    (session action : Act ε α).Abstains :=
  fun studio => unmoved studio.session

theorem Abstains.bind {first : Act ε α} {next : α → Act ε β} (here : first.Abstains)
    (there : ∀ value, (next value).Abstains) : (first >>= next).Abstains := by
  intro studio
  have begins := here studio
  rw [Computation.bind_run]
  rcases run : first studio with ⟨_ | value, after⟩
  · rw [run] at begins
    exact begins
  · rw [run] at begins
    exact begins.trans (there value after)

theorem abstains_startPhase (kind : PhaseKind) : (startPhase kind : Act ε Unit).Abstains :=
  (abstains_session (fun _ => ⟨rfl, rfl⟩)).bind
    (fun _ => abstains_session (Session.beginPhase_unmoved kind))

section Phases

variable {body : Act ε Unit} (abstains : body.Abstains) (kind : PhaseKind) (studio : Studio ε)

include abstains

/-- What a phase takes of the source it takes when its body has ended. -/
theorem Abstains.bodyEnd : studio.session.Unmoved (bodyEnd kind body studio).session :=
  (abstains_startPhase kind studio).trans (abstains _)

end Phases

end Act

end TestProgram
