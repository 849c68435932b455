/-
# TestProgram.Proofs.Lifecycles -- a session goes through its phases once

At any moment of its run the phases of a session have followed each other in their order, each once
at most, whatever templates are run on it and wherever they fail (`lifecycle_sequential`).  A
template that comes after a first phase is turned down before any of its bodies is run.  What can go
wrong at the end of a phase, or of the last one, is less than what is checked there: a block that
has been closed has been attached, a phase that has been closed has produced its block, and when the
books are closed the lifecycle can finish and no region of data is open.

Whether a session is in a phase decides whether a block can be opened when none is open.  It is
while a body runs, and it is not in a new session nor after the last phase.  But a phase that has
failed is never left, and blocks can be opened after it, outside of all bodies
(`blocks_only_in_phases`).
-/
import TestProgram.Proofs.GlobalLabels
import TestProgram.Proofs.PhaseHistories

namespace TestProgram

set_option autoImplicit false

open PhaseEvent (whole InBody InSequence)

/-! ## New sessions -/

namespace Session

theorem new_idle (settings : Settings) : Idle [] (Session.new settings) :=
  ⟨.fresh rfl rfl rfl, rfl⟩

section Plans

variable {ε α : Type} (settings : Settings) (memory : ε) (plan : Plan ε α)

theorem new_orderly :
    Orderly [] (Session.new settings) (plan.deeds ⟨Session.new settings, memory⟩) :=
  (plan.leads [] ⟨Session.new settings, memory⟩ (new_idle settings)).1

/-- Every plan leaves a session that was new at rest. -/
theorem new_rests :
    Rests ((Session.new settings).history (plan.deeds ⟨Session.new settings, memory⟩))
      (plan.run ⟨Session.new settings, memory⟩).2.session :=
  (Chronicle.leads_idle.mp plan.leads [] ⟨Session.new settings, memory⟩ (new_idle settings)).2.1

end Plans

end Session

/-! ## Recovering from what a plan comes to -/

namespace Plan

variable {ε α β : Type}

/-- A plan whatever it comes to, and another after it. -/
def followedBy (first : Plan ε α) (next : Plan ε β) : Plan ε β :=
  .bind (.attempt first) fun _ => next

theorem deeds_followedBy (first : Plan ε α) (next : Plan ε β) (studio : Studio ε) :
    (first.followedBy next).deeds studio =
      first.deeds studio ++ next.deeds (first.run studio).2 := rfl

end Plan

/-! ## Blocks outside of phases -/

/-- **Blocks only in phases.**  When a block is to be opened outside of the bodies of phases, this
fails as a fault of configuration and no block is open, exactly as long as no phase has failed. -/
theorem blocks_only_in_phases {ε α : Type} {settings : Settings} {memory : ε} {plan : Plan ε α}
    {earlier later : List Deed} {kind : BlockKind} {options : BlockOptions}
    {location : Option Location}
    (run : plan.deeds ⟨Session.new settings, memory⟩ =
      earlier ++ .openBlock kind options location :: later)
    (outside : ¬ InBody ((Session.new settings).history earlier)) :
    let session := (Session.new settings).through earlier
    (∃ fault, Session.openBlock kind options location session = (.error fault, session) ∧
      fault.kind = .configuration ∧ session.blocks = []) ↔
    ∀ phase, .failed phase ∉ (Session.new settings).history earlier := by
  intro session
  have rests : Session.Rests ((Session.new settings).history earlier) session :=
    ((Session.new_orderly settings memory plan).settled run).resolve_left outside
  have refused : session.lifecycle.isRunning = false → session.blocks = [] →
      ∃ fault, Session.openBlock kind options location session = (.error fault, session) ∧
        fault.kind = .configuration ∧ session.blocks = [] := by
    intro stopped closed
    refine ⟨_, Session.openBlock_stopped kind options location closed stopped, ?_, closed⟩
    cases location <;> rfl
  cases rests with
  | fresh none_past created closed =>
      refine ⟨fun _ phase => ?_, fun _ => refused (by rw [created]; rfl) closed⟩
      rw [none_past]
      exact List.not_mem_nil
  | @broken part phase begins failed running =>
      constructor
      · rintro ⟨fault, fails, _⟩
        obtain ⟨handle, after, opens⟩ := Session.openBlock_running kind options location running
        cases fails.symm.trans opens
      · intro none_failed
        refine absurd ?_ (none_failed phase)
        rw [failed]
        simp
  | finished all_past done closed =>
      refine ⟨fun _ phase => ?_, fun _ => refused (by rw [done]; rfl) closed⟩
      rw [all_past]
      simp [whole]

namespace Lifecycles

variable {ε : Type}

def nothing : Plan ε Unit :=
  .aloof (pure ()) (fun _ => rfl)

def failing : Plan ε Unit :=
  .aloof (throw (Fault.of .unnamedSection)) (fun _ => rfl)

def emptyTemplate : Plan ε Generated :=
  .generate nothing nothing nothing

/-- A template whose first phase fails. -/
def failingTemplate : Plan ε Generated :=
  .generate failing nothing nothing

def opens : Plan ε BlockHandle :=
  .openBlock .sequence {} none

/-- An empty block at the bottom of the stack. -/
def bottom : OpenBlock :=
  { id := BlockId.root, kind := .sequence }

def closesBooks : Deed → Bool
  | .register _ _ _ => true
  | _ => false

end Lifecycles

open Lifecycles

/-- After a template has been generated no block can be opened. -/
theorem blocks_only_in_phases_done :
    let session := (Session.new {}).through (emptyTemplate.deeds ⟨Session.new {}, ()⟩)
    ∃ fault, Session.openBlock .sequence {} none session = (.error fault, session) ∧
      fault.kind = .configuration ∧ session.blocks = [] := by
  have rests := Session.new_rests {} () emptyTemplate
  have done : (emptyTemplate.run ⟨Session.new {}, ()⟩).2.session.lifecycle = .done := by
    decide +kernel
  refine (blocks_only_in_phases (emptyTemplate.deeds_followedBy opens ⟨Session.new {}, ()⟩)
    rests.not_inBody).mpr ?_
  cases rests with
  | fresh none_past created closed => cases created.symm.trans done
  | broken begins failed running => rw [done] at running; cases running
  | finished all_past _ closed =>
      rw [all_past]
      simp [whole]

/-- After a phase has failed a block can be opened outside of all bodies. -/
theorem block_after_failed_phase :
    ¬ ∀ (settings : Settings) (plan : Plan Unit BlockHandle) (earlier later : List Deed)
      (kind : BlockKind) (options : BlockOptions) (location : Option Location),
      plan.deeds ⟨Session.new settings, ()⟩ =
        earlier ++ .openBlock kind options location :: later →
      ¬ InBody ((Session.new settings).history earlier) →
      (Session.openBlock kind options location
        ((Session.new settings).through earlier)).1.isOk = false := by
  intro always
  have refused := always {} (failingTemplate.followedBy opens)
    (failingTemplate.deeds ⟨Session.new {}, ()⟩) [] .sequence {} none
    (failingTemplate.deeds_followedBy opens _) (Session.new_rests {} () failingTemplate).not_inBody
  have running :
      (failingTemplate.run ⟨Session.new {}, ()⟩).2.session.lifecycle.isRunning = true := by
    decide +kernel
  rw [Plan.session_run] at running
  obtain ⟨handle, after, opened⟩ := Session.openBlock_running .sequence {} none running
  rw [opened] at refused
  cases refused

/-! ## What is checked at the end of a phase -/

namespace Session

/-- The block hangs at the end of the innermost open block, or is the completed one if none is
open. -/
def Holds (session : Session) (block : Block Call) : Prop :=
  match session.blocks with
  | parent :: _ => parent.children.getLast? = some block.toTree
  | [] => session.completed = some block

theorem holds_attach (block : Block Call) (session : Session) :
    (session.attach block).Holds block := by
  rw [Session.attach]
  cases stack : session.blocks with
  | nil => simp only [Holds]
  | cons parent outer => exact List.getLast?_concat

/-- A block that has been closed has been attached. -/
theorem closeBlock_holds {handle : BlockHandle} {session after : Session} {block : Block Call}
    (closed : closeBlock handle session = (.ok block, after)) : after.Holds block := by
  unfold closeBlock at closed
  cases stack : session.blocks with
  | nil =>
      rw [stack] at closed
      cases closed
  | cons top outer =>
      simp only [stack] at closed
      split at closed
      · split at closed
        · cases closed
        · cases closed
          exact holds_attach _ _
      · cases closed

theorem locate?_cause (fault : Fault) (location : Option Location) :
    (fault.locate? location).cause = fault.cause := by
  cases location <;> rfl

theorem admissible_cause {session : Session} {block : OpenBlock} {fault : Fault}
    (fails : session.admissible block = .error fault) :
    (∃ options, fault.cause = .misplacedStrategies options block.kind) ∨
      ∃ option name, fault.cause = .unknownStrategy option name := by
  obtain ⟨cause, checked, rfl⟩ := Except.mapError_error_iff.mp fails
  rw [locate?_cause]
  unfold StrategySet.validate Registry.check at checked
  split at checked
  · right
    rw [Except.bind] at checked
    dsimp only at checked
    split at checked
    · cases checked
      exact ⟨_, _, rfl⟩
    · cases checked
  · cases checked
    exact .inl ⟨_, rfl⟩

/-- A block is not closed if it is not open, or not the innermost one, or if its strategies do not
fit. -/
theorem closeBlock_cause {handle : BlockHandle} {session after : Session} {fault : Fault}
    (fails : closeBlock handle session = (.error fault, after)) :
    (fault.cause = .blockNotOpen handle.id ∨
      ∃ inner, fault.cause = .innerBlockOpen handle.id inner) ∨
    (∃ options kind, fault.cause = .misplacedStrategies options kind) ∨
      ∃ option name, fault.cause = .unknownStrategy option name := by
  unfold closeBlock at fails
  cases stack : session.blocks with
  | nil =>
      rw [stack] at fails
      cases fails
      exact .inl (.inl rfl)
  | cons top outer =>
      simp only [stack] at fails
      split at fails
      · split at fails
        · rename_i refused
          cases fails
          exact .inr ((admissible_cause refused).imp_left fun ⟨options, same⟩ => ⟨options, _, same⟩)
        · cases fails
      · cases fails
        exact .inl (.inr ⟨_, rfl⟩)

/-- When no block is open any more, the one that has been closed is the completed one. -/
theorem completed_of_closeBlock {session after : Session} {block : Block Call}
    (closed : closeBlock ⟨BlockId.root, 0⟩ session = (.ok block, after)) :
    after.completed = some block := by
  have holds := closeBlock_holds closed
  have none_open : after.blocks = [] := by
    cases closeBlock_closing closed with
    | sealed stack height fits registry hung =>
        rw [hung, List.length_eq_zero_iff.mp height]
        rfl
  simp only [Holds, none_open] at holds
  exact holds

/-- The block of a phase is taken unless it cannot be closed. -/
theorem takePhaseBlock_fails {kind : PhaseKind} {session after : Session} {fault : Fault}
    (fails : takePhaseBlock kind session = (.error fault, after)) :
    closeBlock ⟨BlockId.root, 0⟩ session = (.error fault, after) := by
  rcases Computation.bind_error_iff.mp fails with failed | ⟨block, closed, closes, taken⟩
  · exact failed
  · obtain failed | ⟨held, same, here, taken⟩ := Computation.bind_error_iff.mp taken
    · cases failed
    · cases here
      rw [completed_of_closeBlock closes] at taken
      cases taken

end Session

/-! ## Templates on a session that has begun one -/

/-- When a first phase was to begin, none will begin any more. -/
theorem Deed.beginPhase_pre_begun (session : Session) :
    ((Deed.beginPhase .pre).perform session).2.lifecycle ≠ .created := by
  show (Session.beginPhase .pre session).2.lifecycle ≠ .created
  rw [Session.beginPhase_lifecycle]
  cases session.lifecycle <;> exact Lifecycle.noConfusion

theorem Session.through_begun_of_mem {session : Session} {deeds : List Deed}
    (begun : .beginPhase .pre ∈ deeds) : (session.through deeds).lifecycle ≠ .created := by
  obtain ⟨before, after, rfl⟩ := List.append_of_mem begun
  rw [through_append, through_cons]
  exact through_begun after (Deed.beginPhase_pre_begun _)

open Chronicle (turnedDown)

/-- Whatever becomes of a template, a first phase was to begin. -/
theorem Plan.begins_of_generate {ε : Type} (pre main post : Plan ε Unit) (studio : Studio ε) :
    .beginPhase .pre ∈ (generate pre main post).deeds studio := by
  have phase : ∀ studio, .beginPhase .pre ∈ (pre.chronicle.phase .pre).deeds studio :=
    fun _ => List.mem_append_right _ (List.mem_append_left _ (List.mem_singleton_self _))
  refine List.mem_append_left _ (List.mem_append_right _ (List.mem_append_left _ ?_))
  exact phase _

/-- A template that comes late fails before its bodies, and leaves two remarks. -/
theorem Template.generate_late {ε : Type} (template : Template ε) {studio : Studio ε}
    (begun : studio.session.lifecycle ≠ .created) :
    template.generate studio =
      (.error (Fault.of (.phaseOutOfOrder .pre studio.session.lifecycle)), turnedDown studio) := by
  have refused : Session.beginPhase .pre (turnedDown studio).session =
      (.error (Fault.of (.phaseOutOfOrder .pre studio.session.lifecycle)),
        (turnedDown studio).session) := Session.beginPhase_late begun
  have phase : Act.runPhase .pre template.pre
      { studio with session :=
        (Action.remark (.generating studio.session.settings.seed) studio.session).2 } =
      (.error (Fault.of (.phaseOutOfOrder .pre studio.session.lifecycle)), turnedDown studio) := by
    refine Computation.bind_error_iff.mpr (.inr ⟨(), turnedDown studio, rfl, ?_⟩)
    refine Computation.bind_error_iff.mpr (.inl ?_)
    show Act.session _ _ = _
    rw [Act.session, refused]
  refine Computation.bind_error_iff.mpr (.inl ?_)
  refine Computation.bind_error_iff.mpr (.inr ⟨(), _, rfl, ?_⟩)
  exact Computation.bind_error_iff.mpr (.inl phase)

/-! ## The order of phases -/

/-- **The lifecycle of a session.**  Whatever a client does with a new session, at any moment the
phases that were run on it have followed each other in their order: each began once at most, when
the one before had been closed and expanded, and none after one that failed.  Once a first template
has been started (`Plan.begins_of_generate`), every other is turned down as a fault of
configuration, whatever its bodies.  When the books are closed, the lifecycle can finish and no
region of data is open; a phase that is closed has a block, and a block that is closed has been
attached. -/
theorem lifecycle_sequential {ε α : Type} (settings : Settings) (memory : ε) (plan : Plan ε α) :
    let session := Session.new settings
    let deeds := plan.deeds ⟨session, memory⟩
    (∀ earlier, earlier <+: deeds → InSequence (session.history earlier) ∧
      (.beginPhase .pre ∈ earlier →
        ∀ {δ : Type} (template : Template δ) (held : δ), ∃ fault, fault.kind = .configuration ∧
          template.generate ⟨session.through earlier, held⟩ =
            (.error fault, turnedDown ⟨session.through earlier, held⟩))) ∧
    (∀ earlier pre main post later, deeds = earlier ++ .register pre main post :: later →
      (∃ program, (Session.register pre main post (session.through earlier)).1 = .ok program) ∨
      ∃ fault name, (Session.register pre main post (session.through earlier)).1 = .error fault ∧
        fault.cause = .globalDeclaredTwice name) ∧
    (∀ (kind : PhaseKind) (held after : Session) (fault : Fault),
      Session.takePhaseBlock kind held = (.error fault, after) →
        ∀ other, fault.cause ≠ .noPhaseBlock other) ∧
    ∀ (handle : BlockHandle) (held after : Session) (block : Block Call),
      Session.closeBlock handle held = (.ok block, after) → after.Holds block := by
  intro session deeds
  refine ⟨fun earlier before => ⟨?_, ?_⟩, ?_, ?_, ?_⟩
  · obtain ⟨later, whole_run⟩ := before
    refine (Session.new_rests settings memory plan).inSequence.of_prefix ?_
    show session.history earlier <+: session.history deeds
    rw [← whole_run, Session.history_append]
    exact List.prefix_append _ _
  · intro begun δ template held
    exact ⟨_, rfl, template.generate_late (Session.through_begun_of_mem begun)⟩
  · intro earlier pre main post later split
    obtain ⟨lifecycle, depth⟩ := (Session.new_orderly settings memory plan).settled split
    rcases Session.register_cases (session.through earlier) pre main post with
      ⟨index, registered, _⟩ | ⟨fault, failed, _, _, twice⟩
    · exact .inl ⟨_, registered⟩
    · have closed : (session.through earlier).data.isOpen = false :=
        decide_eq_false (depth ▸ Nat.lt_irrefl 0)
      obtain ⟨name, cause, _⟩ := twice (by rw [lifecycle]; rfl) closed
      exact .inr ⟨fault, name, failed, cause⟩
  · intro kind held after fault fails other same
    rcases Session.closeBlock_cause (Session.takePhaseBlock_fails fails) with
      (closed | ⟨inner, closed⟩) | ⟨options, kind, closed⟩ | ⟨option, name, closed⟩
    all_goals cases closed.symm.trans same
  · intro handle held after block closed
    exact Session.closeBlock_holds closed

/-- One template after another, the first of them with nothing to fail at: its books are closed,
and the second is turned down. -/
theorem lifecycle_sequential_again :
    let session := Session.new {}
    let deeds := (emptyTemplate.followedBy emptyTemplate).deeds ⟨session, ()⟩
    let first := emptyTemplate.deeds ⟨session, ()⟩
    InSequence (session.history first) ∧
    (∃ fault, fault.kind = .configuration ∧
      (Plan.template nothing nothing nothing).generate ⟨session.through first, ()⟩ =
        (.error fault, turnedDown ⟨session.through first, ()⟩)) ∧
    (∃ earlier pre main post later, deeds = earlier ++ .register pre main post :: later ∧
      ((∃ program, (Session.register pre main post (session.through earlier)).1 = .ok program) ∨
      ∃ fault name, (Session.register pre main post (session.through earlier)).1 = .error fault ∧
        fault.cause = .globalDeclaredTwice name)) ∧
    (∀ other, Fault.cause (Fault.of (.blockNotOpen BlockId.root)) ≠ .noPhaseBlock other) ∧
    (Session.closeBlock ⟨BlockId.root, 0⟩ { session with blocks := [bottom] }).2.Holds
      bottom.toBlock := by
  intro session deeds first
  obtain ⟨at_all_times, books, taken, closed⟩ :=
    lifecycle_sequential {} () (emptyTemplate.followedBy emptyTemplate)
  have before : first <+: deeds := ⟨_, (emptyTemplate.deeds_followedBy emptyTemplate _).symm⟩
  obtain ⟨in_sequence, refused⟩ := at_all_times first before
  refine ⟨in_sequence, refused (Plan.begins_of_generate _ _ _ _) _ (), ?_, ?_, ?_⟩
  · have closes : deeds.any closesBooks = true := by decide +kernel
    obtain ⟨deed, member, holds⟩ := List.any_eq_true.mp closes
    obtain ⟨earlier, later, split⟩ := List.append_of_mem member
    cases deed with
    | register pre main post =>
        exact ⟨earlier, pre, main, post, later, split, books _ _ _ _ _ split⟩
    | _ => cases holds
  · exact taken .pre session session _ rfl
  · exact closed ⟨BlockId.root, 0⟩ { session with blocks := [bottom] } _ _ rfl

end TestProgram
