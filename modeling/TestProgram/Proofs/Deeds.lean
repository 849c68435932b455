/-
# TestProgram.Proofs.Deeds -- what happens to a session, deed by deed

Whoever uses a session, inside the body of a phase or outside of all of them, does one thing after
another to it: opens a block, closes one with a handle that was kept, adds a call, enters or
leaves an attribute scope, a memory section or a data region, begins or ends a phase.  A run is
the list of these deeds, those that fail included, since a failure may be recovered from at any
level.

Two things are said here of each deed.  It leaves alone what it has nothing to do with: each
statement of a session has its frame, and `Deed.frame` says for all of them which parts of a
session they can touch.  And what a deed can do to the stack of open blocks is little: one block
comes to stand on it, with the handle that stands for this block, or it keeps its height, or some
of the innermost blocks go (`Deed.stacking`).
-/
import TestProgram.Proofs.FailedBlocks
import TestProgram.Session.Scopes
import TestProgram.Template

namespace TestProgram

set_option autoImplicit false

/-- The computation without its value. -/
def Computation.quietly {σ α : Type} (body : ExceptT Fault (StateM σ) α) :
    ExceptT Fault (StateM σ) Unit := fun state =>
  let (outcome, after) := body state
  (outcome.map (fun _ => ()), after)

/-! ## Deeds -/

/-- Nothing was done to the open blocks, the scopes in force, the data and the lifecycle. -/
structure Session.Apart (session after : Session) : Prop where
  blocks : after.blocks = session.blocks
  attributes : after.attributes = session.attributes
  sections : after.sections = session.sections
  data : after.data = session.data
  lifecycle : after.lifecycle = session.lifecycle

namespace Session

theorem Apart.refl (session : Session) : session.Apart session :=
  ⟨rfl, rfl, rfl, rfl, rfl⟩

theorem Apart.trans {first second third : Session} (here : first.Apart second)
    (there : second.Apart third) : first.Apart third where
  blocks := there.blocks.trans here.blocks
  attributes := there.attributes.trans here.attributes
  sections := there.sections.trans here.sections
  data := there.data.trans here.data
  lifecycle := there.lifecycle.trans here.lifecycle

end Session

/-- What is done to a session in one go. -/
inductive Deed
  | openBlock (kind : BlockKind) (options : BlockOptions) (location : Option Location)
  | closeBlock (handle : BlockHandle)
  /-- The end of a scoped block whose body has ended so. -/
  | leaveBlock (handle : BlockHandle) (location : Location) (body : Except Fault Unit)
  | addCall (call : Call) (location : Location)
  | declare (declaration : Declaration) (location : Location)
  | write (output : Output) (location : Location)
  | enterAttributes (attributes : Attributes)
  | leaveAttributes (depth : Nat)
  | enterSection (memory : MemorySection) (location : Location)
  | leaveSection (depth : Nat)
  | data (action : DataAction Unit)
  | beginPhase (kind : PhaseKind)
  /-- The end of a phase whose body has ended so. -/
  | endPhase (kind : PhaseKind) (body : Except Fault Unit)
  | register (pre main post : Phase)
  | link (program : Program)
  /-- Anything else, such as drawing, or registering a strategy. -/
  | aside (change : Session → Session) (apart : ∀ session : Session, session.Apart (change session))

namespace Deed

open TestProgram.Computation (quietly)

def perform : Deed → Action Unit
  | .openBlock kind options location => quietly (Session.openBlock kind options location)
  | .closeBlock handle => quietly (Session.closeBlock handle)
  | .leaveBlock handle location body => Session.leaveBlock handle location body
  | .addCall call location => Session.addCall call location
  | .declare declaration location => declaration.perform location
  | .write output location => (Operation.write output location).perform
  | .enterAttributes attributes => quietly (Session.enterAttributes attributes)
  | .leaveAttributes depth => Session.leaveAttributes depth
  | .enterSection memory location => quietly (Session.enterSection memory location)
  | .leaveSection depth => Session.leaveSection depth
  | .data action => Action.data action
  | .beginPhase kind => Session.beginPhase kind
  | .endPhase kind body => quietly (Session.endPhase kind body)
  | .register pre main post => quietly (Session.register pre main post)
  | .link program => quietly (Session.link program)
  | .aside change _ => modify change

/-- The handle that stands for the block that the deed opens, if it opens one. -/
def opened? (session : Session) : Deed → Option BlockHandle
  | .openBlock kind options location =>
      (Session.openBlock kind options location session).1.toOption
  | .beginPhase kind =>
      ((do Session.enterPhase kind; Session.openBlock .sequence {} none : Action BlockHandle)
        session).1.toOption
  | _ => none

end Deed

/-- The session after a run. -/
def Session.through (session : Session) (deeds : List Deed) : Session :=
  deeds.foldl (fun session deed => (deed.perform session).2) session

namespace Session

@[simp] theorem through_nil (session : Session) : session.through [] = session := rfl

@[simp] theorem through_cons (session : Session) (deed : Deed) (rest : List Deed) :
    session.through (deed :: rest) = Session.through (deed.perform session).2 rest := rfl

@[simp] theorem through_append (session : Session) (first second : List Deed) :
    session.through (first ++ second) = (session.through first).through second :=
  List.foldl_append

end Session

/-! ## Lifecycles -/

namespace Lifecycle

variable {lifecycle next : Lifecycle} {kind : PhaseKind}

theorem isRunning_of_enter (enters : lifecycle.enter kind = some next) :
    next.isRunning = true := by
  unfold enter at enters
  split at enters <;> cases enters <;> rfl

theorem enter_pre_eq_none (begun : lifecycle ≠ .created) : lifecycle.enter .pre = none := by
  cases lifecycle with
  | created => exact absurd rfl begun
  | _ => rfl

theorem ne_created_of_running (running : lifecycle.isRunning = true) : lifecycle ≠ .created := by
  rintro rfl
  cases running

theorem finish_eq_some (finishes : lifecycle.finish = some next) :
    lifecycle = .postRunning ∧ next = .done := by
  cases lifecycle <;> cases finishes
  exact ⟨rfl, rfl⟩

end Lifecycle

/-! ## Frames -/

/-- At most the innermost block is another, under the same id. -/
def Session.Amends (session after : Session) : Prop :=
  ∃ change : OpenBlock → OpenBlock,
    after = { session with blocks := session.blocks.modifyHead change } ∧
      ∀ block, (change block).id = block.id

/-- Nothing but the engine is another. -/
def Session.EngineOnly (session after : Session) : Prop :=
  ∃ engine, after = { session with engine }

namespace Action

variable {α β : Type}

/-- Whatever comes of the action, the session is afterwards related to what it was. -/
def Within (R : Session → Session → Prop) (action : Action α) : Prop :=
  ∀ session, R session (action session).2

theorem Within.bind {R : Session → Session → Prop}
    (trans : ∀ {first second third : Session}, R first second → R second third → R first third)
    {first : Action α} {next : α → Action β} (here : Within R first)
    (there : ∀ value, Within R (next value)) : Within R (first >>= next) := by
  intro session
  have begins := here session
  rw [Computation.bind_run]
  rcases run : first session with ⟨_ | value, after⟩
  · rw [run] at begins
    exact begins
  · rw [run] at begins
    exact trans begins (there value after)

end Action

namespace Session

open TestProgram.Action (Within)

section Amending

variable {session : Session}

theorem amends_refl (session : Session) : session.Amends session :=
  ⟨id, by rw [List.modifyHead_id]; rfl, fun _ => rfl⟩

theorem inBlock_amends (what : String) {change : OpenBlock → OpenBlock}
    (same : ∀ block, (change block).id = block.id) :
    session.Amends (inBlock what change session).2 := by
  refine ⟨change, ?_, same⟩
  obtain ⟨settings, engine, registry, defaults, data, blocks, _⟩ := session
  cases blocks <;> rfl

theorem addCall_amends (call : Call) (location : Location) :
    session.Amends (addCall call location session).2 :=
  inBlock_amends "instruction" (fun _ => rfl)

theorem write_amends (output : Output) (location : Location) :
    session.Amends ((Operation.write output location).perform session).2 := by
  cases output <;> exact inBlock_amends _ (fun _ => rfl)

theorem declare_amends (declaration : Declaration) (location : Location) :
    session.Amends (declaration.perform location session).2 := by
  rcases declaration_adds session declaration location with same | ⟨label, what, added⟩
  · rw [same]
    exact amends_refl session
  · rw [added]
    exact inBlock_amends what (fun _ => rfl)

end Amending

theorem EngineOnly.refl (session : Session) : session.EngineOnly session := ⟨_, rfl⟩

theorem EngineOnly.trans {first second third : Session} (here : first.EngineOnly second)
    (there : second.EngineOnly third) : first.EngineOnly third := by
  obtain ⟨_, rfl⟩ := here
  obtain ⟨engine, rfl⟩ := there
  exact ⟨engine, rfl⟩

theorem link_engineOnly (program : Program) : (link program).Within EngineOnly := by
  have phase : ∀ phase : Phase, (linkPhase program.index phase).Within EngineOnly := fun phase =>
    Within.bind .trans (fun _ => ⟨_, rfl⟩) (fun _ => .refl)
  refine Within.bind .trans (phase _) (fun _ => ?_)
  refine Within.bind .trans (phase _) (fun _ => ?_)
  refine Within.bind .trans (phase _) (fun _ => ?_)
  exact .refl

theorem generateSequences_engineOnly (block : Block Call) :
    (generateSequences block).Within EngineOnly :=
  Within.bind .trans .refl (fun _ _ => ⟨_, rfl⟩)

theorem openBlock_frame (kind : BlockKind) (options : BlockOptions) (location : Option Location)
    (session : Session) :
    ∃ blocks, (openBlock kind options location session).2 = { session with blocks } := by
  unfold openBlock
  split
  · exact ⟨_, rfl⟩
  · split <;> exact ⟨_, rfl⟩

theorem closeBlock_frame (handle : BlockHandle) (session : Session) :
    ∃ blocks completed engine,
      (closeBlock handle session).2 = { session with blocks, completed, engine } := by
  unfold closeBlock
  cases stack : session.blocks with
  | nil => exact ⟨_, _, _, rfl⟩
  | cons top outer =>
      dsimp only
      split
      · split
        · exact ⟨_, _, _, rfl⟩
        · cases outer <;> exact ⟨_, _, _, rfl⟩
      · exact ⟨_, _, _, rfl⟩

theorem leaveBlock_frame (handle : BlockHandle) (location : Location) (body : Except Fault Unit)
    (session : Session) :
    ∃ blocks completed engine,
      (leaveBlock handle location body session).2 = { session with blocks, completed, engine } := by
  cases body with
  | error fault => exact ⟨_, _, _, rfl⟩
  | ok _ =>
      obtain ⟨blocks, completed, engine, closes⟩ := closeBlock_frame handle session
      refine ⟨blocks.drop (blocks.length - handle.depth), completed, engine, ?_⟩
      show (closeBlock handle session).2.discardAbove handle.depth = _
      rw [closes]
      rfl

/-- The end of a phase changes the open blocks and the attribute scopes, and generates. -/
def Concludes (session after : Session) : Prop :=
  ∃ blocks attributes completed engine,
    after = { session with blocks, attributes, completed, engine }

theorem Concludes.refl (session : Session) : session.Concludes session := ⟨_, _, _, _, rfl⟩

theorem Concludes.trans {first second third : Session} (here : first.Concludes second)
    (there : second.Concludes third) : first.Concludes third := by
  obtain ⟨_, _, _, _, rfl⟩ := here
  obtain ⟨_, _, _, _, rfl⟩ := there
  exact ⟨_, _, _, _, rfl⟩

theorem takePhaseBlock_concludes (kind : PhaseKind) : (takePhaseBlock kind).Within Concludes := by
  refine Within.bind .trans (fun session => ?_) (fun _ => Within.bind .trans .refl (fun held => ?_))
  · obtain ⟨blocks, completed, engine, closes⟩ := closeBlock_frame ⟨BlockId.root, 0⟩ session
    rw [closes]
    exact ⟨_, _, _, _, rfl⟩
  · split
    · exact Within.bind .trans (fun _ => ⟨_, _, _, _, rfl⟩) (fun _ => .refl)
    · exact .refl

theorem endPhase_concludes (kind : PhaseKind) (body : Except Fault Unit) :
    (endPhase kind body).Within Concludes := by
  have generates : ∀ {α : Type} {action : Action α}, action.Within EngineOnly →
      action.Within Concludes := by
    intro α action only session
    obtain ⟨engine, same⟩ := only session
    rw [same]
    exact ⟨_, _, _, _, rfl⟩
  cases body with
  | error fault => exact Within.bind .trans (fun _ => ⟨_, _, _, _, rfl⟩) (fun _ => .refl)
  | ok _ =>
      refine Within.bind .trans .refl (fun held => ?_)
      dsimp only
      split
      · exact Within.bind .trans (fun _ => ⟨_, _, _, _, rfl⟩) (fun _ => .refl)
      · refine Within.bind .trans (takePhaseBlock_concludes kind) (fun block => ?_)
        refine Within.bind .trans (generates (generateSequences_engineOnly block)) (fun _ => ?_)
        exact Within.bind .trans (fun _ => ⟨_, _, _, _, rfl⟩) (fun _ => .refl)

/-- A memory section is entered if none is open, and if it has a name. -/
theorem enterSection_cases (memory : MemorySection) (location : Location) (session : Session) :
    (∃ fault, enterSection memory location session = (.error fault, session)) ∨
    (session.sections = [] ∧ ∃ engine, enterSection memory location session =
      (.ok 0, { session with sections := [memory], engine })) := by
  cases unnamed : memory.name.isEmpty with
  | true =>
      left
      simp only [enterSection, Action.locating, unnamed, if_true]
      exact ⟨_, rfl⟩
  | false =>
      cases stack : session.sections with
      | cons outer rest =>
          left
          have inside : session.currentSection = some outer := by rw [currentSection, stack]; rfl
          simp only [enterSection, Action.locating, unnamed, Bool.false_eq_true, if_false,
            Computation.bind_run, Computation.get_run, inside]
          exact ⟨_, rfl⟩
      | nil =>
          right
          have outside : session.currentSection = none := by rw [currentSection, stack]; rfl
          refine ⟨rfl, (Action.remark (.enteringSection memory) session).2.engine, ?_⟩
          simp only [enterSection, Action.locating, unnamed, Bool.false_eq_true, if_false,
            Computation.bind_run, Computation.get_run, outside]
          obtain ⟨settings, engine, registry, defaults, data, blocks, attributes, sections, _⟩ :=
            session
          cases stack
          rfl

theorem enterPhase_none {kind : PhaseKind} {session : Session}
    (out_of_order : session.lifecycle.enter kind = none) : enterPhase kind session =
      (.error (Fault.of (.phaseOutOfOrder kind session.lifecycle)), session) := by
  simp only [enterPhase, out_of_order]

theorem enterPhase_some {kind : PhaseKind} {session : Session} {lifecycle : Lifecycle}
    (enters : session.lifecycle.enter kind = some lifecycle) :
    enterPhase kind session = (.ok (), { session with lifecycle }) := by
  simp only [enterPhase, enters]

/-- A session in a phase opens a block whatever is open. -/
theorem openBlock_running (kind : BlockKind) (options : BlockOptions) (location : Option Location)
    {session : Session} (running : session.lifecycle.isRunning = true) :
    ∃ handle after, openBlock kind options location session = (.ok handle, after) := by
  unfold openBlock
  cases session.blocks with
  | nil => exact ⟨_, _, if_pos running⟩
  | cons top outer => exact ⟨_, _, rfl⟩

theorem openBlock_stopped (kind : BlockKind) (options : BlockOptions) (location : Option Location)
    {session : Session} (closed : session.blocks = [])
    (stopped : session.lifecycle.isRunning = false) :
    openBlock kind options location session =
      (.error ((Fault.of (.blockOutsidePhase kind)).locate? location), session) := by
  simp only [openBlock, closed, stopped, Bool.false_eq_true, if_false]

/-- A phase out of order does not begin, and one in order does, with a block of its own. -/
theorem beginPhase_cases (kind : PhaseKind) (session : Session) :
    (session.lifecycle.enter kind = none ∧ beginPhase kind session =
      (.error (Fault.of (.phaseOutOfOrder kind session.lifecycle)), session)) ∨
    ∃ lifecycle handle after, session.lifecycle.enter kind = some lifecycle ∧
      openBlock .sequence {} none { session with lifecycle } = (.ok handle, after) ∧
      beginPhase kind session = (.ok (), after) := by
  cases entered : session.lifecycle.enter kind with
  | none =>
      refine .inl ⟨rfl, ?_⟩
      rw [beginPhase, Computation.bind_run, enterPhase_none entered]
  | some lifecycle =>
      obtain ⟨handle, after, opens⟩ := openBlock_running .sequence {} none
        (show Lifecycle.isRunning { session with lifecycle }.lifecycle = true
          from Lifecycle.isRunning_of_enter entered)
      refine .inr ⟨lifecycle, handle, after, rfl, opens, ?_⟩
      rw [beginPhase, Computation.bind_run, enterPhase_some entered]
      exact Computation.bind_ok_iff.mpr ⟨handle, after, opens, rfl⟩

/-- No first phase begins in a session that has begun one. -/
theorem beginPhase_late {session : Session} (begun : session.lifecycle ≠ .created) :
    beginPhase .pre session =
      (.error (Fault.of (.phaseOutOfOrder .pre session.lifecycle)), session) := by
  rw [beginPhase, Computation.bind_run, enterPhase_none (Lifecycle.enter_pre_eq_none begun)]

theorem beginPhase_frame (kind : PhaseKind) (session : Session) :
    ∃ lifecycle blocks, (beginPhase kind session).2 = { session with lifecycle, blocks } := by
  rcases beginPhase_cases kind session with ⟨_, refused⟩ | ⟨lifecycle, _, after, _, opens, begins⟩
  · rw [refused]
    exact ⟨_, _, rfl⟩
  · obtain ⟨blocks, left⟩ := openBlock_frame .sequence {} none { session with lifecycle }
    rw [opens] at left
    rw [begins, left]
    exact ⟨lifecycle, blocks, rfl⟩

theorem beginPhase_lifecycle (kind : PhaseKind) (session : Session) :
    (beginPhase kind session).2.lifecycle =
      (session.lifecycle.enter kind).getD session.lifecycle := by
  rcases beginPhase_cases kind session with
    ⟨out_of_order, refused⟩ | ⟨lifecycle, handle, after, enters, opens, begins⟩
  · rw [refused, out_of_order]
    rfl
  · obtain ⟨blocks, left⟩ := openBlock_frame .sequence {} none { session with lifecycle }
    rw [opens] at left
    rw [begins, left, enters]
    rfl

/-- Nothing but the finished data sections are others. -/
def TakesSections (session after : Session) : Prop :=
  ∃ sections, after = { session with data := { session.data with sections } }

theorem TakesSections.refl (session : Session) : session.TakesSections session := ⟨_, rfl⟩

theorem TakesSections.trans {first second third : Session} (here : first.TakesSections second)
    (there : second.TakesSections third) : first.TakesSections third := by
  obtain ⟨_, rfl⟩ := here
  obtain ⟨sections, rfl⟩ := there
  exact ⟨sections, rfl⟩

/-- Registering finishes the lifecycle if it can, and takes the data sections at most. -/
theorem register_frame (pre main post : Phase) (session : Session) :
    ∃ sections, (register pre main post session).2 =
      { session with
        lifecycle := session.lifecycle.finish.getD session.lifecycle
        data := { session.data with sections } } := by
  rw [register, Computation.bind_run]
  unfold finishLifecycle
  cases session.lifecycle.finish with
  | none => exact ⟨_, rfl⟩
  | some lifecycle =>
      refine Within.bind (R := TakesSections) .trans (fun _ => .refl _) (fun held => ?_)
        { session with lifecycle }
      dsimp only
      split
      · exact .refl
      · refine Within.bind .trans (fun _ => ⟨_, rfl⟩) (fun _ => ?_)
        exact Within.bind .trans .refl (fun _ => .refl)

end Session

/-! ## What a deed leaves alone -/

/-- The parts of a session that deeds act on. -/
inductive Component
  | blocks | attributes | sections | data | lifecycle
deriving DecidableEq

/-- The part is the same in both sessions. -/
def Session.Same (session after : Session) : Component → Prop
  | .blocks => after.blocks = session.blocks
  | .attributes => after.attributes = session.attributes
  | .sections => after.sections = session.sections
  | .data => after.data = session.data
  | .lifecycle => after.lifecycle = session.lifecycle

namespace Session

variable {session after : Session} {component : Component}

theorem Same.refl (session : Session) (component : Component) : session.Same session component := by
  cases component <;> rfl

theorem EngineOnly.same (only : session.EngineOnly after) : session.Same after component := by
  obtain ⟨engine, rfl⟩ := only
  cases component <;> rfl

theorem same_of_stack {blocks : List OpenBlock} {completed : Option (Block Call)} {engine : Engine}
    (left : after = { session with blocks, completed, engine }) (other : component ≠ .blocks) :
    session.Same after component := by
  subst left
  cases component with
  | blocks => exact absurd rfl other
  | _ => rfl

theorem Amends.same (amends : session.Amends after) (other : component ≠ .blocks) :
    session.Same after component := by
  obtain ⟨change, left, _⟩ := amends
  exact same_of_stack left other

theorem Apart.same (apart : session.Apart after) : session.Same after component := by
  cases component with
  | blocks => exact apart.blocks
  | attributes => exact apart.attributes
  | sections => exact apart.sections
  | data => exact apart.data
  | lifecycle => exact apart.lifecycle

end Session

namespace Deed

/-- The parts of a session that a deed may change. -/
def touches : Deed → List Component
  | .openBlock _ _ _ | .closeBlock _ | .leaveBlock _ _ _ | .addCall _ _ | .declare _ _
  | .write _ _ => [.blocks]
  | .enterAttributes _ | .leaveAttributes _ => [.attributes]
  | .enterSection _ _ | .leaveSection _ => [.sections]
  | .data _ => [.data]
  | .beginPhase _ => [.lifecycle, .blocks]
  | .endPhase _ _ => [.blocks, .attributes]
  | .register _ _ _ => [.lifecycle, .data]
  | .link _ | .aside _ _ => []

/-- A deed leaves alone what it has nothing to do with. -/
theorem frame (deed : Deed) (session : Session) {component : Component}
    (untouched : component ∉ deed.touches) :
    session.Same (deed.perform session).2 component := by
  cases deed with
  | openBlock kind options location =>
      obtain ⟨_, left⟩ := Session.openBlock_frame kind options location session
      exact Session.same_of_stack left (List.ne_of_not_mem_cons untouched)
  | closeBlock handle =>
      obtain ⟨_, _, _, left⟩ := Session.closeBlock_frame handle session
      exact Session.same_of_stack left (List.ne_of_not_mem_cons untouched)
  | leaveBlock handle location body =>
      obtain ⟨_, _, _, left⟩ := Session.leaveBlock_frame handle location body session
      exact Session.same_of_stack left (List.ne_of_not_mem_cons untouched)
  | addCall call location =>
      exact (Session.addCall_amends call location).same (List.ne_of_not_mem_cons untouched)
  | declare declaration location =>
      exact (Session.declare_amends declaration location).same (List.ne_of_not_mem_cons untouched)
  | write output location =>
      exact (Session.write_amends output location).same (List.ne_of_not_mem_cons untouched)
  | enterAttributes attributes =>
      cases component <;> first | rfl | exact absurd List.mem_cons_self untouched
  | leaveAttributes depth =>
      cases component <;> first | rfl | exact absurd List.mem_cons_self untouched
  | enterSection memory location =>
      show session.Same (Session.enterSection memory location session).2 component
      rcases Session.enterSection_cases memory location session with
        ⟨fault, refused⟩ | ⟨none_open, engine, entered⟩
      · rw [refused]
        exact .refl session component
      · rw [entered]
        cases component <;> first | rfl | exact absurd List.mem_cons_self untouched
  | leaveSection depth =>
      cases component <;> first | rfl | exact absurd List.mem_cons_self untouched
  | data action =>
      cases component <;> first | rfl | exact absurd List.mem_cons_self untouched
  | beginPhase kind =>
      show session.Same (Session.beginPhase kind session).2 component
      obtain ⟨_, _, left⟩ := Session.beginPhase_frame kind session
      rw [left]
      cases component <;> first | rfl | exact absurd (by simp [touches]) untouched
  | endPhase kind body =>
      show session.Same (Session.endPhase kind body session).2 component
      obtain ⟨_, _, _, _, left⟩ := Session.endPhase_concludes kind body session
      rw [left]
      cases component <;> first | rfl | exact absurd (by simp [touches]) untouched
  | register pre main post =>
      show session.Same (Session.register pre main post session).2 component
      obtain ⟨_, left⟩ := Session.register_frame pre main post session
      rw [left]
      cases component <;> first | rfl | exact absurd (by simp [touches]) untouched
  | link program => exact (Session.link_engineOnly program session).same
  | aside change apart => exact (apart session).same

end Deed

/-! ## The stack of open blocks -/

namespace Session

open TestProgram.Action (Within)

/-- The ids of the open blocks, the innermost first. -/
def ids (session : Session) : List BlockId :=
  session.blocks.map OpenBlock.id

@[simp] theorem length_ids (session : Session) : session.ids.length = session.blocks.length :=
  List.length_map ..

/-- Of the open blocks only some of the innermost ones go. -/
def Lowers (session after : Session) : Prop :=
  after.ids <:+ session.ids

theorem Lowers.refl (session : Session) : session.Lowers session := List.suffix_refl _

theorem Lowers.trans {first second third : Session} (here : first.Lowers second)
    (there : second.Lowers third) : first.Lowers third :=
  List.IsSuffix.trans there here

theorem lowers_of_blocks {session after : Session} (kept : after.blocks <:+ session.blocks) :
    session.Lowers after :=
  kept.map OpenBlock.id

theorem map_id_modifyHead {blocks : List OpenBlock} {change : OpenBlock → OpenBlock}
    (same : ∀ block, (change block).id = block.id) :
    (blocks.modifyHead change).map OpenBlock.id = blocks.map OpenBlock.id := by
  cases blocks with
  | nil => rfl
  | cons top outer => rw [List.modifyHead_cons, List.map_cons, List.map_cons, same]

theorem Amends.ids {session after : Session} (amends : session.Amends after) :
    after.ids = session.ids := by
  obtain ⟨change, rfl, same⟩ := amends
  exact map_id_modifyHead same

theorem EngineOnly.lowers {session after : Session} (only : session.EngineOnly after) :
    session.Lowers after := by
  obtain ⟨engine, rfl⟩ := only
  exact .refl session

theorem closeBlock_lowers (handle : BlockHandle) : (closeBlock handle).Within Lowers := by
  intro session
  rcases run : closeBlock handle session with ⟨outcome, after⟩
  cases closeBlock_closing run with
  | refused fault => exact .refl session
  | dropped fault stack height => exact lowers_of_blocks (stack ▸ List.suffix_cons _ _)
  | sealed stack height fits registry hung =>
      rw [Lowers, ids, ids, hung, stack]
      rw [map_id_modifyHead]
      · exact (List.suffix_cons _ _).map OpenBlock.id
      · exact fun _ => rfl

theorem leaveBlock_lowers (handle : BlockHandle) (location : Location)
    (body : Except Fault Unit) : (leaveBlock handle location body).Within Lowers := by
  intro session
  cases body with
  | error fault => exact lowers_of_blocks (discardAbove_suffix _ _)
  | ok _ =>
      exact (closeBlock_lowers handle session).trans (lowers_of_blocks (discardAbove_suffix _ _))

theorem takePhaseBlock_lowers (kind : PhaseKind) : (takePhaseBlock kind).Within Lowers := by
  refine Within.bind .trans (closeBlock_lowers _) (fun _ => ?_)
  refine Within.bind .trans .refl (fun held => ?_)
  split
  · exact Within.bind .trans (fun _ => .refl _) (fun _ => .refl)
  · exact .refl

theorem endPhase_lowers (kind : PhaseKind) (body : Except Fault Unit) :
    (endPhase kind body).Within Lowers := by
  have clears : ∀ {α : Type} {action : Action α}, (∀ session, (action session).2.blocks = []) →
      action.Within Lowers := fun none_open session =>
    lowers_of_blocks ((none_open session).symm ▸ List.nil_suffix)
  cases body with
  | error fault => exact Within.bind .trans (clears fun _ => rfl) (fun _ => .refl)
  | ok _ =>
      refine Within.bind .trans .refl (fun held => ?_)
      dsimp only
      split
      · exact Within.bind .trans (clears fun _ => rfl) (fun _ => .refl)
      · refine Within.bind .trans (takePhaseBlock_lowers kind) (fun block => ?_)
        refine Within.bind .trans (fun session =>
          (generateSequences_engineOnly block session).lowers) (fun _ => ?_)
        exact Within.bind .trans (fun _ => .refl _) (fun _ => .refl)

/-- A block that opens comes to stand on the others, as its handle says. -/
theorem openBlock_ids {kind : BlockKind} {options : BlockOptions} {location : Option Location}
    {session after : Session} {handle : BlockHandle}
    (opens : openBlock kind options location session = (.ok handle, after)) :
    after.ids = handle.id :: session.ids := by
  unfold openBlock at opens
  cases stack : session.blocks with
  | nil =>
      by_cases running : session.lifecycle.isRunning = true
      · simp only [stack, if_pos running] at opens
        cases opens
        simp only [ids, stack]
        rfl
      · simp only [stack, if_neg running] at opens
        cases opens
  | cons parent outer =>
      simp only [stack] at opens
      cases opens
      simp only [ids, stack]
      rfl

end Session

namespace Deed

open Session (Lowers)

/-- Blocks that are open may be closed by the deed. -/
def closes : Deed → Bool
  | .closeBlock _ | .leaveBlock _ _ _ | .endPhase _ _ => true
  | _ => false

/-- What a deed can do to the stack of open blocks: a block comes to stand on it, with the handle
that stands for it, or it keeps its height, or some of the innermost ones go. -/
inductive Stacking (deed : Deed) (session : Session) : Prop
  | opens (handle : BlockHandle) (opened : deed.opened? session = some handle)
      (height : handle.depth = session.blocks.length)
      (ids : (deed.perform session).2.ids = handle.id :: session.ids)
  | keeps (opened : deed.opened? session = none) (ids : (deed.perform session).2.ids = session.ids)
  | lowers (opened : deed.opened? session = none) (closing : deed.closes = true)
      (kept : session.Lowers (deed.perform session).2)

theorem openBlock_stacking (kind : BlockKind) (options : BlockOptions) (location : Option Location)
    (session : Session) : (openBlock kind options location).Stacking session := by
  have performed : ((openBlock kind options location).perform session).2 =
      (Session.openBlock kind options location session).2 := rfl
  rcases run : Session.openBlock kind options location session with ⟨fault | handle, after⟩
  · refine .keeps (by rw [opened?, run]; rfl) ?_
    obtain ⟨_, same⟩ := Session.openBlock_error run
    rw [performed, run, same]
  · refine .opens handle (by rw [opened?, run]; rfl) (Session.depth_of_openBlock run) ?_
    rw [performed, run]
    exact Session.openBlock_ids run

theorem beginPhase_stacking (kind : PhaseKind) (session : Session) :
    (beginPhase kind).Stacking session := by
  have performed :
      ((beginPhase kind).perform session).2 = (Session.beginPhase kind session).2 := rfl
  rcases Session.beginPhase_cases kind session with
    ⟨out_of_order, refused⟩ | ⟨lifecycle, handle, after, enters, opens, begins⟩
  · refine .keeps ?_ (by rw [performed, refused])
    rw [opened?, Computation.bind_run, Session.enterPhase_none out_of_order]
    rfl
  · have height := Session.depth_of_openBlock opens
    have on_top := Session.openBlock_ids opens
    refine .opens handle ?_ height (by rw [performed, begins]; exact on_top)
    rw [opened?, Computation.bind_run, Session.enterPhase_some enters]
    simp only [opens]
    rfl

theorem stacking (deed : Deed) (session : Session) : deed.Stacking session := by
  have apart : Component.blocks ∉ deed.touches →
      (deed.perform session).2.ids = session.ids := by
    intro untouched
    have same : (deed.perform session).2.blocks = session.blocks := deed.frame session untouched
    rw [Session.ids, same, Session.ids]
  cases deed with
  | openBlock kind options location => exact openBlock_stacking kind options location session
  | beginPhase kind => exact beginPhase_stacking kind session
  | closeBlock handle => exact .lowers rfl rfl (Session.closeBlock_lowers handle session)
  | leaveBlock handle location body =>
      exact .lowers rfl rfl (Session.leaveBlock_lowers handle location body session)
  | endPhase kind body => exact .lowers rfl rfl (Session.endPhase_lowers kind body session)
  | addCall call location => exact .keeps rfl (Session.addCall_amends call location).ids
  | declare declaration location =>
      exact .keeps rfl (Session.declare_amends declaration location).ids
  | write output location => exact .keeps rfl (Session.write_amends output location).ids
  | _ => exact .keeps rfl (apart (by simp [touches]))

end Deed

/-! ## The stages of a lifecycle -/

/-- A lifecycle that has begun does not begin again. -/
theorem Deed.begun (deed : Deed) {session : Session} (begun : session.lifecycle ≠ .created) :
    (deed.perform session).2.lifecycle ≠ .created := by
  have apart : Component.lifecycle ∉ deed.touches →
      (deed.perform session).2.lifecycle ≠ .created := by
    intro untouched
    have same : (deed.perform session).2.lifecycle = session.lifecycle :=
      deed.frame session untouched
    rwa [same]
  cases deed with
  | beginPhase kind =>
      show (Session.beginPhase kind session).2.lifecycle ≠ .created
      rw [Session.beginPhase_lifecycle]
      cases enters : session.lifecycle.enter kind with
      | none => exact begun
      | some lifecycle =>
          exact Lifecycle.ne_created_of_running (Lifecycle.isRunning_of_enter enters)
  | register pre main post =>
      show (Session.register pre main post session).2.lifecycle ≠ .created
      obtain ⟨_, left⟩ := Session.register_frame pre main post session
      rw [left]
      cases finishes : session.lifecycle.finish with
      | none => exact begun
      | some lifecycle =>
          obtain ⟨_, rfl⟩ := Lifecycle.finish_eq_some finishes
          exact Lifecycle.noConfusion
  | _ => exact apart (by simp [touches])

theorem Session.through_begun {session : Session} (deeds : List Deed)
    (begun : session.lifecycle ≠ .created) : (session.through deeds).lifecycle ≠ .created := by
  induction deeds generalizing session with
  | nil => exact begun
  | cons deed rest ih => exact ih (deed.begun begun)

end TestProgram
