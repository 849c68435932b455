/-
# TestProgram.Proofs.Plans -- what clients of a session can do

A client of a session calls its statements and decides in between, on what it sees of the session
and on what it remembers; it may nest the statements that enclose others in any way, and it may
recover from a failure at any level.  A `Plan` writes such a client down, and scripts and template
files are plans (`Script.runAll_planned`, `TemplateFile.template_planned`).  A region of data has
statements of its own, which cannot reach the rest of the session, and so have the functions of a
page table; they are written down as a `RegionPlan` and as a `DeskPlan`.

A plan runs as what the session has for its statements: `Plan.run` of a scoped block is
`Act.scopedBlock` of the run of its body, and so for the others.  Along with its run goes the list
of the deeds that are done to the session on the way, whether they succeed or fail; a `Chronicle`
keeps the two together, with the proof that the deeds lead to the session that the run leaves
(`Plan.session_run`).
-/
import TestProgram.Proofs.Deeds
import TestProgram.Proofs.HushedStudios

namespace TestProgram

set_option autoImplicit false

open TestProgram.Computation (quietly)

/-! ## Chronicles -/

/-- Something is noted in the journal. -/
def Deed.remark (made : Session → Remark) : Deed :=
  .aside (fun session => (Action.remark (made session) session).2)
    (fun _ => ⟨rfl, rfl, rfl, rfl, rfl⟩)

/-- A computation of a client, and what it does to the session deed by deed. -/
structure Chronicle (ε α : Type) where
  act : Act ε α
  deeds : Studio ε → List Deed
  faithful : ∀ studio, (act studio).2.session = studio.session.through (deeds studio)

namespace Chronicle

variable {ε α β : Type}

/-- What leaves the session alone. -/
def aloof (act : Act ε α) (apart : act.Aloof) : Chronicle ε α where
  act
  deeds _ := []
  faithful := apart

/-- One deed, done by an action of the session. -/
def once (action : Action α) (deed : Deed)
    (does : ∀ session, (deed.perform session).2 = (action session).2) : Chronicle ε α where
  act := Act.session action
  deeds _ := [deed]
  faithful studio := (does studio.session).symm

def ofExcept (outcome : Except Fault α) : Chronicle ε α :=
  aloof (Act.ofExcept outcome) (fun _ => rfl)

def bind (first : Chronicle ε α) (next : α → Chronicle ε β) : Chronicle ε β where
  act := first.act >>= fun value => (next value).act
  deeds studio := first.deeds studio ++
    match first.act studio with
    | (.ok value, after) => (next value).deeds after
    | (.error _, _) => []
  faithful studio := by
    have here := first.faithful studio
    rw [Computation.bind_run]
    rcases run : first.act studio with ⟨_ | value, after⟩
    · rw [run] at here
      simp only [List.append_nil]
      exact here
    · rw [run] at here
      simp only [Session.through_append, ← here]
      exact (next value).faithful after

/-- From this studio the computation comes to this end, by these deeds. -/
structure Tells (chronicle : Chronicle ε α) (studio : Studio ε) (outcome : Except Fault α)
    (after : Studio ε) (deeds : List Deed) : Prop where
  act : chronicle.act studio = (outcome, after)
  deeds : chronicle.deeds studio = deeds

section Telling

variable {first : Chronicle ε α} {next : α → Chronicle ε β} {studio middle after : Studio ε}
  {here there : List Deed}

theorem Tells.bind {value : α} {outcome : Except Fault β}
    (begins : first.Tells studio (.ok value) middle here)
    (goes_on : (next value).Tells middle outcome after there) :
    (first.bind next).Tells studio outcome after (here ++ there) := by
  constructor
  · show (first.act >>= fun value => (next value).act) studio = _
    rw [Computation.bind_run, begins.act]
    exact goes_on.act
  · simp only [Chronicle.bind, begins.act, begins.deeds, goes_on.deeds]

theorem Tells.bind_error {fault : Fault} (fails : first.Tells studio (.error fault) after here) :
    (first.bind next).Tells studio (.error fault) after here := by
  constructor
  · show (first.act >>= fun value => (next value).act) studio = _
    rw [Computation.bind_run, fails.act]
  · simp only [Chronicle.bind, fails.act, fails.deeds, List.append_nil]

theorem tells_once {action : Action α} {deed : Deed}
    {does : ∀ session, (deed.perform session).2 = (action session).2} {outcome : Except Fault α}
    {last : Session} (run : action studio.session = (outcome, last)) :
    (once action deed does : Chronicle ε α).Tells studio outcome { studio with session := last }
      [deed] := by
  refine ⟨?_, rfl⟩
  simp only [once, Act.session, run]

end Telling

def attempt (body : Chronicle ε α) : Chronicle ε (Except Fault α) where
  act := Act.attempt body.act
  deeds := body.deeds
  faithful := body.faithful

def locating (location : Location) (body : Chronicle ε α) : Chronicle ε α where
  act := Act.locating location body.act
  deeds := body.deeds
  faithful := body.faithful

def data (action : DataAction α) : Chronicle ε α :=
  once (Action.data action) (.data (quietly action)) (fun _ => rfl)

/-- An action that opens something, a body in it, and an action that closes it when the body has
ended. -/
def enclosing (opening : Chronicle ε β) (body : Chronicle ε Unit)
    (closing : β → Except Fault Unit → Chronicle ε α) : Chronicle ε α :=
  opening.bind fun opened => body.attempt.bind fun outcome => closing opened outcome

/-! ## Enclosing statements -/

section Enclosing

variable (body : Chronicle ε Unit)

def scopedBlock (kind : BlockKind) (options : BlockOptions) (location : Location) :
    Chronicle ε Unit :=
  enclosing
    (once (Session.openBlock kind options (some location))
      (.openBlock kind options (some location)) (fun _ => rfl))
    body
    (fun handle outcome => once (Session.leaveBlock handle location outcome)
      (.leaveBlock handle location outcome) (fun _ => rfl))

def withAttributes (attributes : Attributes) : Chronicle ε Unit :=
  enclosing
    (once (Session.enterAttributes attributes) (.enterAttributes attributes) (fun _ => rfl))
    body
    (fun depth outcome =>
      (once (Session.leaveAttributes depth) (.leaveAttributes depth) (fun _ => rfl)).bind
        fun _ => ofExcept outcome)

def inSection (memory : MemorySection) (location : Location) : Chronicle ε Unit :=
  enclosing
    (once (Session.enterSection memory location) (.enterSection memory location) (fun _ => rfl))
    body
    (fun depth outcome =>
      (once (Session.leaveSection depth) (.leaveSection depth) (fun _ => rfl)).bind
        fun _ => ofExcept (located location outcome))

def configureData (config : DataConfig) (location : Location) : Chronicle ε Unit :=
  enclosing ((data (DataDesk.beginConfig config)).locating location) body
    (fun _ outcome => (data DataDesk.endConfig).bind fun _ => ofExcept (located location outcome))

def dataRegion (region : DataRegion) (location : Location) : Chronicle ε Unit :=
  (aloof (Act.session (do pure (← get).currentSection)) (fun _ => rfl)).bind fun memory =>
    enclosing ((data (DataDesk.enter region memory)).locating location) body
      (fun _ outcome => (data DataDesk.exit).bind fun _ => ofExcept (located location outcome))

def nestedRegion (region : DataRegion) : Chronicle ε Unit :=
  enclosing (data (DataDesk.enter region none)) body
    (fun _ outcome => (data DataDesk.exit).bind fun _ => ofExcept outcome)

def remark (made : Session → Remark) : Chronicle ε Unit :=
  once (do Action.remark (made (← get))) (.remark made) (fun _ => rfl)

def phase (kind : PhaseKind) : Chronicle ε Phase :=
  (remark fun _ => .phaseStarted kind).bind fun _ =>
    enclosing (once (Session.beginPhase kind) (.beginPhase kind) (fun _ => rfl)) body
      (fun _ outcome => once (Session.endPhase kind outcome) (.endPhase kind outcome)
        (fun _ => rfl))

end Enclosing

def program (pre main post : Chronicle ε Unit) : Chronicle ε Program :=
  (remark fun session => .generating session.settings.seed).bind fun _ =>
  (pre.phase .pre).bind fun pre =>
  (main.phase .main).bind fun main =>
  (post.phase .post).bind fun post =>
  once (Session.register pre main post) (.register pre main post) (fun _ => rfl)

def generate (pre main post : Chronicle ε Unit) : Chronicle ε Generated :=
  (program pre main post).bind fun program =>
    once (Session.link program) (.link program) (fun _ => rfl)

/-! ## Late templates -/

/-- The studio when a template has been turned down that came after a first phase. -/
def turnedDown (studio : Studio ε) : Studio ε :=
  { studio with session := { studio.session with
      engine := { studio.session.engine with
        journal := studio.session.engine.journal ++
          [.generating studio.session.settings.seed] ++ [.phaseStarted .pre] } } }

/-- What a template does that comes after a first phase. -/
def lateDeeds : List Deed :=
  [.remark fun session => .generating session.settings.seed, .remark fun _ => .phaseStarted .pre,
    .beginPhase .pre]

theorem forall_mem_lateDeeds {P : Deed → Prop} (remarks : ∀ made, P (.remark made))
    (begins : P (.beginPhase .pre)) : ∀ deed ∈ lateDeeds, P deed := by
  simp only [lateDeeds, List.forall_mem_cons]
  exact ⟨remarks _, remarks _, begins, List.forall_mem_nil _⟩

/-- A template that comes after a first phase does not get to a body. -/
theorem generate_late (pre main post : Chronicle ε Unit) {studio : Studio ε}
    (begun : studio.session.lifecycle ≠ .created) :
    (generate pre main post).Tells studio
      (.error (Fault.of (.phaseOutOfOrder .pre studio.session.lifecycle))) (turnedDown studio)
      lateDeeds := by
  have refused : Session.beginPhase .pre (turnedDown studio).session =
      (.error (Fault.of (.phaseOutOfOrder .pre studio.session.lifecycle)),
        (turnedDown studio).session) := Session.beginPhase_late begun
  have begins : (once (Session.beginPhase .pre) (.beginPhase .pre) (fun _ => rfl) :
      Chronicle ε Unit).Tells (turnedDown studio) _ (turnedDown studio) [.beginPhase .pre] :=
    tells_once refused
  have generating : (remark fun session => .generating session.settings.seed :
      Chronicle ε Unit).Tells studio (.ok ()) _ _ := ⟨rfl, rfl⟩
  have started : (remark fun _ => .phaseStarted .pre : Chronicle ε Unit).Tells
      ((remark fun session => .generating session.settings.seed : Chronicle ε Unit).act studio).2
      (.ok ()) (turnedDown studio) _ := ⟨rfl, rfl⟩
  have phase : (pre.phase .pre).Tells _ _ _ _ := started.bind (Tells.bind_error begins)
  have program : (program pre main post).Tells studio _ _ _ :=
    generating.bind (Tells.bind_error phase)
  exact program.bind_error

end Chronicle

/-! ## Plans -/

/-- A statement of a region, or of the configuration of the data. -/
inductive DataStatement
  | define (definition : DataDefinition)
  | origin (origin : Origin)
  | align (items : Nat)
  | label (name : String) (isGlobal : Bool)
  | text (content : String)
  | comment (content : String)
  | emit (id : String) (values : List Argument)

def DataStatement.perform : DataStatement → DataAction Unit
  | .define definition => DataDesk.define definition
  | .origin place => DataDesk.origin place
  | .align items => DataDesk.align items
  | .label name isGlobal => DataDesk.label name isGlobal
  | .text content => DataDesk.text content
  | .comment content => DataDesk.comment content
  | .emit id values => DataDesk.emit id values

/-- A region inside a region, with a body that keeps to the desk. -/
def DataDesk.nested (region : DataRegion) (body : DataAction Unit) : DataAction Unit := do
  DataDesk.enter region none
  let outcome ← DataDesk.attempt body
  DataDesk.exit
  ExceptT.mk (pure outcome)

/-- What the functions of a page table can do. -/
inductive DeskPlan : Type → Type 1
  /-- Anything that leaves the data alone. -/
  | aside {α : Type} (action : DataAction α) (apart : ∀ desk, (action desk).2.store = desk.store) :
      DeskPlan α
  | statement (statement : DataStatement) : DeskPlan Unit
  | bind {α β : Type} (first : DeskPlan α) (next : α → DeskPlan β) : DeskPlan β
  | attempt {α : Type} (body : DeskPlan α) : DeskPlan (Except Fault α)
  | region (region : DataRegion) (body : DeskPlan Unit) : DeskPlan Unit
  /-- An entry written by a table that may have a preparator and may have an adaptor. -/
  | pageTableEntry (prepares adapts : Bool) (preparator : Attributes → DeskPlan Unit)
      (adaptor : MemoryObject → DeskPlan Unit) (entry : PageTableEntry) : DeskPlan Unit

namespace DeskPlan

def run {α : Type} : DeskPlan α → DataAction α
  | .aside action _ => action
  | .statement made => made.perform
  | .bind first next => first.run >>= fun value => (next value).run
  | .attempt body => DataDesk.attempt body.run
  | .region kind body => DataDesk.nested kind body.run
  | .pageTableEntry prepares adapts preparator adaptor entry =>
      PageTable.emit
        { preparator := if prepares then some (fun attributes => (preparator attributes).run)
            else none
          adaptor := if adapts then some (fun object => (adaptor object).run) else none }
        entry

end DeskPlan

/-- The body of a data region, or of the configuration of the data. -/
inductive RegionPlan (ε : Type) : Type → Type 1
  /-- Anything that leaves the session alone. -/
  | aloof {α : Type} (act : Act ε α) (apart : act.Aloof) : RegionPlan ε α
  | desk {α : Type} (plan : DeskPlan α) : RegionPlan ε α
  | bind {α β : Type} (first : RegionPlan ε α) (next : α → RegionPlan ε β) : RegionPlan ε β
  | attempt {α : Type} (body : RegionPlan ε α) : RegionPlan ε (Except Fault α)
  | locating {α : Type} (location : Location) (body : RegionPlan ε α) : RegionPlan ε α
  | region (region : DataRegion) (body : RegionPlan ε Unit) : RegionPlan ε Unit

def RegionPlan.chronicle {ε α : Type} : RegionPlan ε α → Chronicle ε α
  | .aloof act apart => .aloof act apart
  | .desk plan => .data plan.run
  | .bind first next => first.chronicle.bind fun value => (next value).chronicle
  | .attempt body => body.chronicle.attempt
  | .locating location body => body.chronicle.locating location
  | .region kind body => body.chronicle.nestedRegion kind

namespace RegionPlan

variable {ε α : Type}

/-- The body as a computation. -/
def run (plan : RegionPlan ε α) : Act ε α :=
  plan.chronicle.act

theorem run_region (kind : DataRegion) (body : RegionPlan ε Unit) :
    (region kind body).run = Act.nestedRegion kind body.run := rfl

end RegionPlan

/-- What a client does with the session it is given. -/
inductive Plan (ε : Type) : Type → Type 1
  /-- Anything that leaves the session alone. -/
  | aloof {α : Type} (act : Act ε α) (apart : act.Aloof) : Plan ε α
  /-- Anything that leaves the open blocks, the scopes, the data and the lifecycle alone. -/
  | aside {α : Type} (action : Action α)
      (apart : ∀ session : Session, session.Apart (action session).2) : Plan ε α
  | openBlock (kind : BlockKind) (options : BlockOptions) (location : Option Location) :
      Plan ε BlockHandle
  | closeBlock (handle : BlockHandle) : Plan ε (Block Call)
  | addCall (call : Call) (location : Location) : Plan ε Unit
  | declare (declaration : Declaration) (location : Location) : Plan ε Unit
  | write (output : Output) (location : Location) : Plan ε Unit
  | bind {α β : Type} (first : Plan ε α) (next : α → Plan ε β) : Plan ε β
  | attempt {α : Type} (body : Plan ε α) : Plan ε (Except Fault α)
  | locating {α : Type} (location : Location) (body : Plan ε α) : Plan ε α
  | scopedBlock (kind : BlockKind) (options : BlockOptions) (location : Location)
      (body : Plan ε Unit) : Plan ε Unit
  | withAttributes (attributes : Attributes) (body : Plan ε Unit) : Plan ε Unit
  | inSection (memory : MemorySection) (location : Location) (body : Plan ε Unit) : Plan ε Unit
  | configureData (config : DataConfig) (location : Location) (body : RegionPlan ε Unit) :
      Plan ε Unit
  | dataRegion (region : DataRegion) (location : Location) (body : RegionPlan ε Unit) :
      Plan ε Unit
  /-- A template of these phases, on the session at hand. -/
  | generate (pre main post : Plan ε Unit) : Plan ε Generated

namespace Plan

variable {ε α β : Type}

def chronicle {α : Type} : Plan ε α → Chronicle ε α
  | .aloof act apart => .aloof act apart
  | .aside action apart => .once action (.aside (fun session => (action session).2) apart)
      (fun _ => rfl)
  | .openBlock kind options location =>
      .once (Session.openBlock kind options location) (.openBlock kind options location)
        (fun _ => rfl)
  | .closeBlock handle => .once (Session.closeBlock handle) (.closeBlock handle) (fun _ => rfl)
  | .addCall call location =>
      .once (Session.addCall call location) (.addCall call location) (fun _ => rfl)
  | .declare declaration location =>
      .once (declaration.perform location) (.declare declaration location) (fun _ => rfl)
  | .write output location =>
      .once (Operation.write output location).perform (.write output location) (fun _ => rfl)
  | .bind first next => first.chronicle.bind fun value => (next value).chronicle
  | .attempt body => body.chronicle.attempt
  | .locating location body => body.chronicle.locating location
  | .scopedBlock kind options location body => body.chronicle.scopedBlock kind options location
  | .withAttributes attributes body => body.chronicle.withAttributes attributes
  | .inSection memory location body => body.chronicle.inSection memory location
  | .configureData config location body => body.chronicle.configureData config location
  | .dataRegion region location body => body.chronicle.dataRegion region location
  | .generate pre main post => .generate pre.chronicle main.chronicle post.chronicle

/-- The plan as a computation. -/
def run (plan : Plan ε α) : Act ε α :=
  plan.chronicle.act

/-- What the plan does to a session when it runs. -/
def deeds (plan : Plan ε α) (studio : Studio ε) : List Deed :=
  plan.chronicle.deeds studio

def template (pre main post : Plan ε Unit) : Template ε where
  pre := pre.run
  main := main.run
  post := post.run

theorem session_run (plan : Plan ε α) (studio : Studio ε) :
    (plan.run studio).2.session = studio.session.through (plan.deeds studio) :=
  plan.chronicle.faithful studio

section Runs

variable (body : Plan ε Unit) (inner : RegionPlan ε Unit)

theorem run_scopedBlock (kind : BlockKind) (options : BlockOptions) (location : Location) :
    (scopedBlock kind options location body).run =
      Act.scopedBlock kind options location body.run := rfl

theorem run_withAttributes (attributes : Attributes) :
    (withAttributes attributes body).run = Act.withAttributes attributes body.run := rfl

theorem run_inSection (memory : MemorySection) (location : Location) :
    (inSection memory location body).run = Act.inSection memory location body.run := rfl

theorem run_configureData (config : DataConfig) (location : Location) :
    (configureData config location inner).run =
      Act.configureData config location inner.run := rfl

theorem run_dataRegion (region : DataRegion) (location : Location) :
    (dataRegion region location inner).run =
      Act.dataRegion region location inner.run := rfl

theorem run_generate (pre main post : Plan ε Unit) :
    (generate pre main post).run = (template pre main post).generate := rfl

end Runs

end Plan

/-! ## What all deeds of a plan have in common -/

/-- A deed that closes no block and has nothing to do with phases. -/
def Deed.Common : Deed → Prop
  | .closeBlock _ | .leaveBlock _ _ _ | .beginPhase _ | .endPhase _ _ | .register _ _ _
  | .link _ => False
  | _ => True

/-- An invariant of sessions, and what it says of the deeds that are done to them.  Blocks that
are closed by their handles are left to be spoken for, and so are phases. -/
structure Deed.Rule (I : Session → Prop) (P : Deed → Prop) : Prop where
  step : ∀ {session deed}, I session → P deed → I (deed.perform session).2
  common : ∀ {deed : Deed}, deed.Common → P deed
  leaves : ∀ {session opened kind options location handle}, I session →
    Session.openBlock kind options (some location) session = (.ok handle, opened) →
    ∀ body, P (.leaveBlock handle location body)

namespace Deed.Rule

variable {I : Session → Prop} {P : Deed → Prop}

theorem through (rule : Deed.Rule I P) {session : Session} {deeds : List Deed} (start : I session)
    (all : ∀ deed ∈ deeds, P deed) : I (session.through deeds) := by
  induction deeds generalizing session with
  | nil => exact start
  | cons deed rest ih =>
      obtain ⟨here, later⟩ := List.forall_mem_cons.mp all
      exact ih (rule.step start here) later

end Deed.Rule

namespace Chronicle

variable {ε α β : Type} {I : Session → Prop} {P : Deed → Prop}

/-- From this studio on, the rule speaks for all deeds if it does for the blocks that are closed
by their handles. -/
def Obeys (I : Session → Prop) (P : Deed → Prop) (chronicle : Chronicle ε α) (studio : Studio ε) :
    Prop :=
  I studio.session →
    (∀ handle, .closeBlock handle ∈ chronicle.deeds studio → P (.closeBlock handle)) →
    ∀ deed ∈ chronicle.deeds studio, P deed

variable {studio : Studio ε}

theorem obeys_aloof (act : Act ε α) (apart : act.Aloof) : (aloof act apart).Obeys I P studio :=
  fun _ _ _ member => absurd member List.not_mem_nil

theorem obeys_once {action : Action α} {deed : Deed}
    (does : ∀ session, (deed.perform session).2 = (action session).2) (holds : P deed) :
    (once action deed does : Chronicle ε α).Obeys I P studio := by
  intro _ _ other member
  rw [List.mem_singleton.mp member]
  exact holds

theorem Obeys.locating {body : Chronicle ε α} (obeys : body.Obeys I P studio)
    (location : Location) : (body.locating location).Obeys I P studio :=
  obeys

theorem Obeys.attempt {body : Chronicle ε α} (obeys : body.Obeys I P studio) :
    body.attempt.Obeys I P studio :=
  obeys

section Rule

variable (rule : Deed.Rule I P)

include rule

theorem Obeys.bind {first : Chronicle ε α} {next : α → Chronicle ε β}
    (here : first.Obeys I P studio)
    (there : ∀ value after, I after.session → first.act studio = (.ok value, after) →
      (next value).Obeys I P after) : (first.bind next).Obeys I P studio := by
  intro start closing
  have before : ∀ deed ∈ first.deeds studio, P deed :=
    here start (fun handle member => closing handle (List.mem_append_left _ member))
  have reached : I (first.act studio).2.session := by
    rw [first.faithful]
    exact rule.through start before
  rcases run : first.act studio with ⟨_ | value, after⟩
  · simpa only [Chronicle.bind, run, List.append_nil] using before
  · rw [run] at reached
    simp only [Chronicle.bind, run] at closing ⊢
    intro deed member
    rcases List.mem_append.mp member with earlier | later
    · exact before deed earlier
    · exact there value after reached run reached
        (fun handle listed => closing handle (List.mem_append_right _ listed)) deed later

theorem Obeys.enclosing {opening : Chronicle ε β} {body : Chronicle ε Unit}
    {closing : β → Except Fault Unit → Chronicle ε α} (opens : opening.Obeys I P studio)
    (inside : ∀ studio, body.Obeys I P studio)
    (closes : I studio.session → ∀ opened after, opening.act studio = (.ok opened, after) →
      ∀ outcome last, (closing opened outcome).Obeys I P last) :
    (enclosing opening body closing).Obeys I P studio := by
  intro start
  refine Obeys.bind rule opens (fun opened after _ run => ?_) start
  exact Obeys.bind rule (inside after).attempt (fun outcome last _ _ =>
    closes start opened after run outcome last)

/-- The end of a statement that encloses a body. -/
theorem Obeys.ending {closing : Chronicle ε β} (obeys : closing.Obeys I P studio)
    (outcome : Except Fault α) : (closing.bind fun _ => ofExcept outcome).Obeys I P studio :=
  obeys.bind rule (fun _ _ _ _ => obeys_aloof _ _)

theorem obeys_data (action : DataAction α) : (data action : Chronicle ε α).Obeys I P studio :=
  obeys_once (fun _ => rfl) (rule.common trivial)

/-- A template that is run late does not get to a body. -/
theorem obeys_generate (late : ∀ {session}, I session → session.lifecycle ≠ .created)
    (begins : P (.beginPhase .pre)) (pre main post : Chronicle ε Unit) :
    (generate pre main post).Obeys I P studio := by
  intro start _
  rw [(generate_late pre main post (late start)).deeds]
  exact forall_mem_lateDeeds (fun _ => rule.common trivial) begins

end Rule

end Chronicle

section Plans

open Chronicle

theorem RegionPlan.obeys {ε : Type} {I : Session → Prop} {P : Deed → Prop} (rule : Deed.Rule I P)
    {α : Type} (plan : RegionPlan ε α) (studio : Studio ε) : plan.chronicle.Obeys I P studio := by
  induction plan generalizing studio with
  | aloof act apart => exact obeys_aloof act apart
  | desk plan => exact obeys_data rule plan.run
  | bind first next here there =>
      exact (here studio).bind rule (fun value after _ _ => there value after)
  | attempt body ih => exact (ih studio).attempt
  | locating location body ih => exact (ih studio).locating location
  | region region body ih =>
      refine Obeys.enclosing rule (obeys_data rule _) ih (fun _ _ _ _ _ last => ?_)
      exact (obeys_data rule _).ending rule _

theorem RegionPlan.obeys_configureData {ε : Type} {I : Session → Prop} {P : Deed → Prop}
    (rule : Deed.Rule I P) (body : RegionPlan ε Unit) (config : DataConfig) (location : Location)
    (studio : Studio ε) : (body.chronicle.configureData config location).Obeys I P studio := by
  refine Obeys.enclosing rule ((obeys_data rule _).locating location) (body.obeys rule) ?_
  exact fun _ _ _ _ _ _ => (obeys_data rule _).ending rule _

theorem RegionPlan.obeys_dataRegion {ε : Type} {I : Session → Prop} {P : Deed → Prop}
    (rule : Deed.Rule I P) (body : RegionPlan ε Unit) (region : DataRegion) (location : Location)
    (studio : Studio ε) : (body.chronicle.dataRegion region location).Obeys I P studio := by
  refine (obeys_aloof _ _).bind rule (fun memory within _ _ => ?_)
  refine Obeys.enclosing rule ((obeys_data rule _).locating location) (body.obeys rule) ?_
  exact fun _ _ _ _ _ _ => (obeys_data rule _).ending rule _

/-- **The deeds of a plan.**  A rule speaks for all deeds of a plan that runs in a phase, or after
the last one. -/
theorem Plan.obeys {ε : Type} {I : Session → Prop} {P : Deed → Prop} (rule : Deed.Rule I P)
    (late : ∀ {session}, I session → session.lifecycle ≠ .created) (begins : P (.beginPhase .pre))
    {α : Type} (plan : Plan ε α) (studio : Studio ε) : plan.chronicle.Obeys I P studio := by
  induction plan generalizing studio with
  | aloof act apart => exact obeys_aloof act apart
  | closeBlock handle =>
      intro _ closing deed member
      rw [List.mem_singleton.mp member]
      exact closing handle List.mem_cons_self
  | bind first next here there =>
      exact (here studio).bind rule (fun value after _ _ => there value after)
  | attempt body ih => exact (ih studio).attempt
  | locating location body ih => exact (ih studio).locating location
  | generate pre main post => exact obeys_generate rule late begins _ _ _
  | scopedBlock kind options location body ih =>
      refine Obeys.enclosing rule (obeys_once (fun _ => rfl) (rule.common trivial)) ih ?_
      intro start handle after run outcome last
      exact obeys_once (fun _ => rfl) (rule.leaves start (Act.session_ok run) outcome)
  | withAttributes attributes body ih =>
      refine Obeys.enclosing rule (obeys_once (fun _ => rfl) (rule.common trivial)) ih ?_
      refine fun _ _ _ _ _ _ => Obeys.ending rule ?_ _
      exact obeys_once (fun _ => rfl) (rule.common trivial)
  | inSection memory location body ih =>
      refine Obeys.enclosing rule (obeys_once (fun _ => rfl) (rule.common trivial)) ih ?_
      refine fun _ _ _ _ _ _ => Obeys.ending rule ?_ _
      exact obeys_once (fun _ => rfl) (rule.common trivial)
  | configureData config location body =>
      exact body.obeys_configureData rule config location studio
  | dataRegion region location body => exact body.obeys_dataRegion rule region location studio
  | _ => exact obeys_once (fun _ => rfl) (rule.common trivial)

end Plans

end TestProgram
