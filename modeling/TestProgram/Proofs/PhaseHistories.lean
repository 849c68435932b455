/-
# TestProgram.Proofs.PhaseHistories -- the phases that a session has gone through

What has become of the phases of a session can be read off the deeds that were done to it: a phase
began, it was completed, it failed (`Session.history`).  A client may run templates as often as it
likes, one after the other and one inside the body of another, and recover from their failures; but
in the whole of its run the phases stand in their order, each begins once at most, and after one
that has failed none begins (`PhaseEvent.InSequence`).

Outside of the bodies of phases a session rests in one of three states: it is new, one of its
phases has failed, or all of them are over (`Session.Rests`).  A plan that starts from one of them
ends in one of them, and whenever it opens a block on its way, the session is at rest or in the
body of a phase (`Plan.leads`).
-/
import TestProgram.Proofs.Scopes

namespace TestProgram

set_option autoImplicit false

/-! ## Events -/

inductive PhaseEvent
  /-- The phase has got its block, and its body is run. -/
  | began (kind : PhaseKind)
  /-- The body has ended well, and its block has been closed and expanded. -/
  | completed (kind : PhaseKind)
  | failed (kind : PhaseKind)
deriving DecidableEq

namespace PhaseEvent

/-- What happens to the phases if nothing goes wrong. -/
def whole : List PhaseEvent :=
  [PhaseKind.pre, .main, .post].flatMap (fun kind => [.began kind, .completed kind])

/-- The phases stand in their order up to some point, and the last of them may have failed. -/
def InSequence (events : List PhaseEvent) : Prop :=
  events <+: whole ∨
    ∃ part kind, part ++ [.began kind] <+: whole ∧ events = part ++ [.began kind, .failed kind]

theorem InSequence.of_prefix {events earlier : List PhaseEvent} (in_sequence : InSequence events)
    (before : earlier <+: events) : InSequence earlier := by
  rcases in_sequence with goes_well | ⟨part, kind, begins, rfl⟩
  · exact .inl (before.trans goes_well)
  · have split : part ++ [PhaseEvent.began kind, .failed kind] =
        (part ++ [.began kind]) ++ [.failed kind] := by simp
    rw [split] at before
    rcases List.prefix_concat_iff.mp before with all | part_of
    · exact .inr ⟨part, kind, begins, all.trans split.symm⟩
    · exact .inl (part_of.trans begins)

def runsBody : Option PhaseEvent → Bool
  | some (.began _) => true
  | _ => false

/-- The last thing that has happened is that a phase has begun: its body is being run. -/
def InBody (events : List PhaseEvent) : Prop :=
  runsBody events.getLast? = true

instance (events : List PhaseEvent) : Decidable (InBody events) :=
  inferInstanceAs (Decidable (_ = true))

theorem inBody_concat (events : List PhaseEvent) (kind : PhaseKind) :
    InBody (events ++ [.began kind]) := by
  rw [InBody, List.getLast?_concat]
  rfl

end PhaseEvent

/-- What a deed does to the phases. -/
def Deed.event? (session : Session) : Deed → Option PhaseEvent
  | .beginPhase kind =>
      if (Session.beginPhase kind session).1.isOk then some (.began kind) else none
  | .endPhase kind body =>
      some (if (Session.endPhase kind body session).1.isOk then .completed kind else .failed kind)
  | _ => none

/-- What becomes of the phases in a run. -/
def Session.history (session : Session) : List Deed → List PhaseEvent
  | [] => []
  | deed :: rest =>
      (deed.event? session).toList ++ Session.history (deed.perform session).2 rest

theorem Session.history_append (session : Session) (first second : List Deed) :
    session.history (first ++ second) =
      session.history first ++ (session.through first).history second := by
  induction first generalizing session with
  | nil => rfl
  | cons deed rest ih =>
      rw [List.cons_append, history, history, ih, List.append_assoc]
      rfl

/-! ## Deeds that leave the phases alone -/

/-- Neither begins a phase nor ends one. -/
def Deed.Quiet : Deed → Prop
  | .beginPhase _ | .endPhase _ _ | .register _ _ _ => False
  | _ => True

/-- What is done once a first phase has begun; no other begins as the first. -/
def Deed.Late (session : Session) (deed : Deed) : Prop :=
  deed.Quiet ∨ (deed = .beginPhase .pre ∧ session.lifecycle ≠ .created)

namespace Deed

variable {deed : Deed} {session : Session}

theorem Quiet.lifecycle (quiet : deed.Quiet) :
    (deed.perform session).2.lifecycle = session.lifecycle := by
  have untouched : Component.lifecycle ∉ deed.touches := by
    cases deed <;> first | exact quiet.elim | simp [touches]
  exact deed.frame session untouched

theorem Late.event (late : deed.Late session) : deed.event? session = none := by
  rcases late with quiet | ⟨rfl, begun⟩
  · cases deed <;> first | rfl | exact quiet.elim
  · rw [event?, Session.beginPhase_late begun]
    rfl

theorem Late.lifecycle (late : deed.Late session) :
    (deed.perform session).2.lifecycle = session.lifecycle := by
  rcases late with quiet | ⟨rfl, begun⟩
  · exact quiet.lifecycle
  · show (Session.beginPhase .pre session).2.lifecycle = session.lifecycle
    rw [Session.beginPhase_late begun]

/-- In a session that is in no phase no block is opened. -/
theorem Late.opened (late : deed.Late session) (stopped : session.lifecycle.isRunning = false)
    (closed : session.blocks = []) : deed.opened? session = none := by
  rcases late with quiet | ⟨rfl, begun⟩
  · cases deed with
    | openBlock kind options location =>
        rw [opened?, Session.openBlock_stopped kind options location closed stopped]
        rfl
    | beginPhase kind => exact quiet.elim
    | _ => rfl
  · rw [opened?, Computation.bind_run, Session.enterPhase_none (Lifecycle.enter_pre_eq_none begun)]
    rfl

theorem Late.blocks (late : deed.Late session) (stopped : session.lifecycle.isRunning = false)
    (closed : session.blocks = []) : (deed.perform session).2.blocks = [] := by
  have none_open : session.ids = [] := by rw [Session.ids, closed, List.map_nil]
  apply List.map_eq_nil_iff.mp
  show (deed.perform session).2.ids = []
  cases deed.stacking session with
  | opens handle opens height ids => cases (late.opened stopped closed).symm.trans opens
  | keeps opened ids => rw [ids, none_open]
  | lowers opened closing kept =>
      rw [Session.Lowers, none_open] at kept
      exact List.suffix_nil.mp kept

end Deed

/-! ## Sessions at rest -/

namespace Session

open PhaseEvent (whole InBody InSequence)

/-- The states of a session outside of the bodies of its phases. -/
inductive Rests (past : List PhaseEvent) (session : Session) : Prop
  | fresh (none_past : past = []) (created : session.lifecycle = .created)
      (closed : session.blocks = [])
  | broken {part : List PhaseEvent} {kind : PhaseKind} (begins : part ++ [.began kind] <+: whole)
      (failed : past = part ++ [.began kind, .failed kind])
      (running : session.lifecycle.isRunning = true)
  | finished (all_past : past = whole) (done : session.lifecycle = .done)
      (closed : session.blocks = [])

variable {past : List PhaseEvent} {session : Session}

theorem Rests.inSequence (rests : Rests past session) : InSequence past := by
  cases rests with
  | fresh none_past created closed => exact .inl (none_past ▸ List.nil_prefix)
  | @broken part kind begins failed running => exact .inr ⟨part, kind, begins, failed⟩
  | finished all_past done closed => exact .inl (all_past ▸ List.prefix_refl _)

theorem Rests.not_inBody (rests : Rests past session) : ¬ InBody past := by
  cases rests with
  | fresh none_past created closed =>
      rw [none_past]
      decide
  | @broken part kind begins failed running =>
      have ends : part ++ [PhaseEvent.began kind, .failed kind] =
          (part ++ [.began kind]) ++ [.failed kind] := by simp
      rw [failed, ends, InBody, List.getLast?_concat]
      exact Bool.false_ne_true
  | finished all_past done closed =>
      rw [all_past]
      decide

theorem Rests.late (rests : Rests past session) {deed : Deed} (late : deed.Late session) :
    Rests past (deed.perform session).2 := by
  have same := late.lifecycle
  cases rests with
  | fresh none_past created closed =>
      exact .fresh none_past (same.trans created) (late.blocks (by rw [created]; rfl) closed)
  | broken begins failed running => exact .broken begins failed (same.symm ▸ running)
  | finished all_past done closed =>
      exact .finished all_past (same.trans done) (late.blocks (by rw [done]; rfl) closed)

/-! ## Orderly runs -/

/-- What is known of a session when a deed is done to it that depends on the phases. -/
def Settled (past : List PhaseEvent) (session : Session) : Deed → Prop
  | .openBlock _ _ _ => InBody past ∨ Rests past session
  | .register _ _ _ => session.lifecycle = .postRunning ∧ session.data.depth = 0
  | _ => True

/-- At each deed of the run the session is settled. -/
def Orderly (past : List PhaseEvent) (session : Session) : List Deed → Prop
  | [] => True
  | deed :: rest => Settled past session deed ∧
      Orderly (past ++ (deed.event? session).toList) (deed.perform session).2 rest

theorem orderly_append {first second : List Deed} :
    Orderly past session (first ++ second) ↔ Orderly past session first ∧
      Orderly (past ++ session.history first) (session.through first) second := by
  induction first generalizing past session with
  | nil => simp [Orderly, history]
  | cons deed rest ih =>
      rw [List.cons_append, Orderly, Orderly, ih, history, through_cons, ← List.append_assoc,
        and_assoc]

/-- In an orderly run the session is settled at any deed one chooses. -/
theorem Orderly.settled {deeds earlier later : List Deed} {deed : Deed}
    (orderly : Orderly past session deeds) (split : deeds = earlier ++ deed :: later) :
    Settled (past ++ session.history earlier) (session.through earlier) deed := by
  rw [split] at orderly
  exact (orderly_append.mp orderly).2.1

/-- Deeds that leave the phases alone, from a session that they keep as it should be. -/
theorem late_run (K : Session → Prop) {deeds : List Deed}
    (step : ∀ {session deed}, K session → deed ∈ deeds → deed.Late session ∧
      Settled past session deed ∧ K (deed.perform session).2) (start : K session) :
    Orderly past session deeds ∧ session.history deeds = [] ∧ K (session.through deeds) := by
  induction deeds generalizing session with
  | nil => exact ⟨trivial, rfl, start⟩
  | cons deed rest ih =>
      obtain ⟨late, settled, kept⟩ := step start List.mem_cons_self
      obtain ⟨orderly, nothing, ends⟩ := ih
        (fun holds member => step holds (List.mem_cons_of_mem _ member)) kept
      refine ⟨⟨settled, ?_⟩, ?_, ends⟩
      · rw [late.event, Option.toList_none, List.append_nil]
        exact orderly
      · rw [history, late.event, nothing]
        rfl

theorem Rests.settled (rests : Rests past session) {deed : Deed} (late : deed.Late session) :
    Settled past session deed := by
  cases deed with
  | openBlock kind options location => exact .inr rests
  | register pre main post => rcases late with quiet | ⟨same, _⟩ <;> trivial
  | _ => trivial

theorem settled_inBody (inside : InBody past) {deed : Deed} (late : deed.Late session) :
    Settled past session deed := by
  cases deed with
  | openBlock kind options location => exact .inl inside
  | register pre main post => rcases late with quiet | ⟨same, _⟩ <;> trivial
  | _ => trivial

/-- A session at rest, in no region of data. -/
def Idle (past : List PhaseEvent) (session : Session) : Prop :=
  Rests past session ∧ session.data.depth = 0

/-- A session before a phase, with nothing open; this has become of the phases before. -/
structure Between (lifecycle : Lifecycle) (part : List PhaseEvent) (past : List PhaseEvent)
    (session : Session) : Prop where
  past : past = part
  lifecycle : session.lifecycle = lifecycle
  closed : session.blocks = []
  depth : session.data.depth = 0

/-- A session in the body of a phase; this has become of the phases up to its beginning. -/
structure Inside (lifecycle : Lifecycle) (part : List PhaseEvent) (past : List PhaseEvent)
    (session : Session) : Prop where
  past : past = part
  lifecycle : session.lifecycle = lifecycle
  depth : session.data.depth = 0

/-- A phase that has been completed has left nothing open. -/
theorem endPhase_closes {kind : PhaseKind} {outcome : Except Fault Unit} {phase : Phase}
    {after : Session} (run : endPhase kind outcome session = (.ok phase, after)) :
    after.blocks = [] := by
  obtain ⟨rfl, block, ends⟩ := endPhase_ok run
  obtain ⟨held, _, here, run⟩ := Computation.bind_ok_iff.mp run
  cases here
  have one : ¬ session.blocks.length ≠ 1 := by rw [ends.only]; simp
  simp only [if_neg one] at run
  obtain ⟨sealed, taken, takes, run⟩ := Computation.bind_ok_iff.mp run
  obtain ⟨sequences, last, generated, run⟩ := Computation.bind_ok_iff.mp run
  cases run
  obtain ⟨_, _, _, rfl⟩ := (takePhaseBlock_ok_iff ends.only).mp takes
  obtain ⟨_, same⟩ := generateSequences_engineOnly sealed
    (session.withoutPhaseBlock (block.flushed session.currentSection))
  rw [generated] at same
  exact congrArg Session.blocks same

end Session

/-! ## What computations lead to -/

namespace Chronicle

open Session (Idle Between Inside Rests Orderly)
open PhaseEvent (whole InBody)

variable {ε α β : Type} {before : List PhaseEvent → Session → Prop}

/-- From the one kind of moment the computation leads to the other if it succeeds, and to rest if
it fails, and its run is orderly. -/
def Leads (before : List PhaseEvent → Session → Prop) (chronicle : Chronicle ε α)
    (after : α → List PhaseEvent → Session → Prop) : Prop :=
  ∀ (past : List PhaseEvent) (studio : Studio ε), before past studio.session →
    Orderly past studio.session (chronicle.deeds studio) ∧
    match chronicle.act studio with
    | (.ok value, ended) =>
        after value (past ++ studio.session.history (chronicle.deeds studio)) ended.session
    | (.error _, ended) =>
        Idle (past ++ studio.session.history (chronicle.deeds studio)) ended.session

theorem Leads.bind {first : Chronicle ε α} {next : α → Chronicle ε β}
    {middle : α → List PhaseEvent → Session → Prop} {after : β → List PhaseEvent → Session → Prop}
    (here : Leads before first middle) (there : ∀ value, Leads (middle value) (next value) after) :
    Leads before (first.bind next) after := by
  intro past studio start
  obtain ⟨orderly, ends⟩ := here past studio start
  have reached := first.faithful studio
  rcases run : first.act studio with ⟨fault | value, halfway⟩
  · rw [run] at ends
    have told : (first.bind next).Tells studio _ _ _ := Tells.bind_error ⟨run, rfl⟩
    rw [told.act, told.deeds]
    exact ⟨orderly, ends⟩
  · rw [run] at ends reached
    obtain ⟨later, last⟩ := there value _ halfway ends
    have told : (first.bind next).Tells studio _ _ _ := Tells.bind ⟨run, rfl⟩ ⟨rfl, rfl⟩
    rw [told.act, told.deeds, Session.history_append, Session.orderly_append, ← reached,
      ← List.append_assoc]
    exact ⟨⟨orderly, later⟩, last⟩

/-- Whether it succeeds or fails, the computation ends at rest. -/
theorem leads_idle {chronicle : Chronicle ε α} : Leads before chronicle (fun _ => Idle) ↔
    ∀ past studio, before past studio.session →
      Orderly past studio.session (chronicle.deeds studio) ∧
      Idle (past ++ studio.session.history (chronicle.deeds studio))
        (chronicle.act studio).2.session := by
  refine forall_congr' (fun past => forall_congr' (fun studio => imp_congr_right (fun _ => ?_)))
  rcases chronicle.act studio with ⟨fault | value, ended⟩ <;> exact Iff.rfl

theorem Leads.attempt {body : Chronicle ε α} (leads : Leads before body (fun _ => Idle)) :
    Leads before body.attempt (fun _ => Idle) :=
  have told := leads_idle.mp leads
  leads_idle.mpr told

theorem Leads.locating {body : Chronicle ε α} (leads : Leads before body (fun _ => Idle))
    (location : Location) : Leads before (body.locating location) (fun _ => Idle) :=
  have told := leads_idle.mp leads
  leads_idle.mpr told

/-- Nothing happens to the phases of a session that rests. -/
theorem leads_of_quiet {chronicle : Chronicle ε α}
    (quiet : ∀ studio, ∀ deed ∈ chronicle.deeds studio, deed.Quiet)
    (level : ∀ studio, (chronicle.act studio).2.session.data.depth = studio.session.data.depth) :
    Leads Idle chronicle (fun _ => Idle) := by
  refine leads_idle.mpr (fun past studio idle => ?_)
  have step : ∀ {session : Session} {deed : Deed}, Rests past session →
      deed ∈ chronicle.deeds studio → deed.Late session ∧ Session.Settled past session deed ∧
        Rests past (deed.perform session).2 := by
    intro session deed rests member
    have late : deed.Late session := .inl (quiet studio deed member)
    exact ⟨late, rests.settled late, rests.late late⟩
  obtain ⟨orderly, nothing, rests⟩ := Session.late_run (Rests past) step idle.1
  rw [nothing, List.append_nil]
  refine ⟨orderly, ?_, (level studio).trans idle.2⟩
  rw [chronicle.faithful]
  exact rests

/-- One deed that has nothing to do with phases and data. -/
theorem leads_once {action : Action α} {deed : Deed}
    (does : ∀ session, (deed.perform session).2 = (action session).2) (quiet : deed.Quiet)
    (apart : .data ∉ deed.touches) :
    Leads Idle (once action deed does : Chronicle ε α) (fun _ => Idle) := by
  refine leads_of_quiet (fun studio other member => ?_) (fun studio => ?_)
  · rw [List.mem_singleton.mp member]
    exact quiet
  · have same := congrArg DataStore.depth (deed.frame studio.session apart)
    rw [does] at same
    exact same

theorem leads_aloof (act : Act ε α) (apart : act.Aloof) :
    Leads Idle (aloof act apart) (fun _ => Idle) :=
  leads_of_quiet (fun _ _ member => absurd member List.not_mem_nil)
    (fun studio => congrArg (fun session : Session => session.data.depth) (apart studio))

/-- A statement that encloses a body. -/
theorem Leads.enclosing {opening : Chronicle ε β} {body : Chronicle ε Unit}
    {closing : β → Except Fault Unit → Chronicle ε α} (opens : Leads Idle opening (fun _ => Idle))
    (leads : Leads Idle body (fun _ => Idle))
    (closes : ∀ opened outcome, Leads Idle (closing opened outcome) (fun _ => Idle)) :
    Leads Idle (enclosing opening body closing) (fun _ => Idle) :=
  opens.bind (fun opened => leads.attempt.bind (closes opened))

/-! ## Phases -/

/-- The body does nothing to the phases once a first one has begun. -/
def IsLate (body : Chronicle ε α) : Prop :=
  ∀ studio : Studio ε, studio.session.lifecycle ≠ .created →
    ∀ deed ∈ body.deeds studio, ∀ session : Session, session.lifecycle ≠ .created →
      deed.Late session

section Phases

variable {kind : PhaseKind} {lifecycle next : Lifecycle} {part : List PhaseEvent}

theorem remark_leads (made : Session → Remark) :
    Leads (Between lifecycle part) (remark made : Chronicle ε Unit)
      (fun _ => Between lifecycle part) := by
  intro past studio between
  refine ⟨⟨trivial, trivial⟩, ?_⟩
  show Between lifecycle part (past ++ []) _
  rw [List.append_nil]
  exact ⟨between.past, between.lifecycle, between.closed, between.depth⟩

theorem begin_leads (enters : lifecycle.enter kind = some next) :
    Leads (Between lifecycle part)
      (once (Session.beginPhase kind) (.beginPhase kind) (fun _ => rfl) : Chronicle ε Unit)
      (fun _ => Inside next (part ++ [.began kind])) := by
  intro past studio between
  refine ⟨⟨trivial, trivial⟩, ?_⟩
  have run := Session.beginPhase_of_enter between.closed (between.lifecycle.symm ▸ enters)
    (Lifecycle.isRunning_of_enter enters)
  have event : Deed.event? studio.session (.beginPhase kind) = some (.began kind) := by
    rw [Deed.event?, run]
    rfl
  have history : studio.session.history [.beginPhase kind] = [.began kind] := by
    rw [Session.history, event]
    rfl
  simp only [once, Act.session, run, history, between.past]
  exact ⟨rfl, rfl, between.depth⟩

/-- A body may run templates of its own; none of their phases begins. -/
theorem body_leads {body : Chronicle ε Unit} (running : next.isRunning = true)
    (late : body.IsLate)
    (restores : body.act.Restores False) :
    Leads (Inside next (part ++ [.began kind])) body.attempt
      (fun _ => Inside next (part ++ [.began kind])) := by
  intro past studio inside
  have begun : next ≠ .created := Lifecycle.ne_created_of_running running
  have in_body : InBody past := inside.past.symm ▸ PhaseEvent.inBody_concat part kind
  have step : ∀ {session : Session} {deed : Deed}, session.lifecycle = next →
      deed ∈ body.deeds studio → deed.Late session ∧ Session.Settled past session deed ∧
        (deed.perform session).2.lifecycle = next := by
    intro session deed holds member
    have is_late := late studio (inside.lifecycle ▸ begun) deed member session (holds ▸ begun)
    exact ⟨is_late, Session.settled_inBody in_body is_late, is_late.lifecycle.trans holds⟩
  obtain ⟨orderly, nothing, same⟩ :=
    Session.late_run (fun session => session.lifecycle = next) step inside.lifecycle
  refine ⟨orderly, ?_⟩
  show Inside next _ (past ++ studio.session.history (body.deeds studio))
    (body.act studio).2.session
  rw [nothing, List.append_nil]
  refine ⟨inside.past, ?_, (restores studio).depth.trans inside.depth⟩
  rw [body.faithful]
  exact same

theorem end_leads (running : next.isRunning = true) (begins : part ++ [.began kind] <+: whole)
    (outcome : Except Fault Unit) :
    Leads (Inside next (part ++ [.began kind]))
      (once (Session.endPhase kind outcome) (.endPhase kind outcome) (fun _ => rfl) :
        Chronicle ε Phase)
      (fun _ => Between next (part ++ [.began kind, .completed kind])) := by
  intro past studio inside
  refine ⟨⟨trivial, trivial⟩, ?_⟩
  have same : ∀ component : Component, component = .lifecycle ∨ component = .data →
      studio.session.Same (Session.endPhase kind outcome studio.session).2 component := by
    intro component untouched
    refine Deed.frame (.endPhase kind outcome) studio.session ?_
    rcases untouched with rfl | rfl <;> simp [Deed.touches]
  have lifecycle : (Session.endPhase kind outcome studio.session).2.lifecycle = next :=
    (same .lifecycle (.inl rfl)).trans inside.lifecycle
  have depth : (Session.endPhase kind outcome studio.session).2.data.depth = 0 :=
    (congrArg DataStore.depth (same .data (.inr rfl))).trans inside.depth
  rcases run : Session.endPhase kind outcome studio.session with ⟨fault | phase, after⟩
  · have history : studio.session.history [.endPhase kind outcome] = [.failed kind] := by
      simp only [Session.history, Deed.event?, run]
      rfl
    rw [run] at lifecycle depth
    simp only [once, Act.session, run, history, inside.past]
    refine ⟨.broken begins ?_ (lifecycle.symm ▸ running), depth⟩
    rw [List.append_assoc]
    rfl
  · have history : studio.session.history [.endPhase kind outcome] = [.completed kind] := by
      simp only [Session.history, Deed.event?, run]
      rfl
    rw [run] at lifecycle depth
    simp only [once, Act.session, run, history, inside.past]
    refine ⟨?_, lifecycle, Session.endPhase_closes run, depth⟩
    rw [List.append_assoc]
    rfl

theorem phase_leads {body : Chronicle ε Unit} (enters : lifecycle.enter kind = some next)
    (begins : part ++ [.began kind] <+: whole)
    (late : body.IsLate)
    (restores : body.act.Restores False) :
    Leads (Between lifecycle part) (body.phase kind)
      (fun _ => Between next (part ++ [.began kind, .completed kind])) := by
  have running := Lifecycle.isRunning_of_enter enters
  refine Leads.bind (remark_leads _) (fun _ => Leads.bind (begin_leads enters) (fun _ => ?_))
  exact Leads.bind (body_leads running late restores) (end_leads running begins)

end Phases

/-! ## Templates -/

/-- When all phases are completed the books are closed, whether the labels can be registered or
not. -/
theorem register_leads (pre main post : Phase) :
    Leads (Between .postRunning whole)
      (once (Session.register pre main post) (.register pre main post) (fun _ => rfl) :
        Chronicle ε Program)
      (fun _ => Idle) := by
  refine leads_idle.mpr (fun past studio between => ?_)
  refine ⟨⟨⟨between.lifecycle, between.depth⟩, trivial⟩, ?_⟩
  obtain ⟨_, left⟩ := Session.register_frame pre main post studio.session
  have idle : Idle past (Session.register pre main post studio.session).2 := by
    rw [left, between.lifecycle]
    exact ⟨.finished between.past rfl between.closed, between.depth⟩
  show Idle (past ++ []) _
  rw [List.append_nil]
  exact idle

theorem link_leads (program : Program) :
    Leads Idle (once (Session.link program) (.link program) (fun _ => rfl) : Chronicle ε Generated)
      (fun _ => Idle) :=
  leads_once _ trivial (by simp [Deed.touches])

/-- A template that comes late leaves a session at rest. -/
theorem generate_leads_late (pre main post : Chronicle ε Unit) {past : List PhaseEvent}
    {studio : Studio ε} (begun : studio.session.lifecycle ≠ .created)
    (idle : Idle past studio.session) :
    Orderly past studio.session ((generate pre main post).deeds studio) ∧
      Idle (past ++ studio.session.history ((generate pre main post).deeds studio))
        ((generate pre main post).act studio).2.session := by
  have told := generate_late pre main post begun
  have step : ∀ {session : Session} {deed : Deed},
      Rests past session ∧ session.lifecycle ≠ .created → deed ∈ lateDeeds →
      deed.Late session ∧ Session.Settled past session deed ∧
        Rests past (deed.perform session).2 ∧ (deed.perform session).2.lifecycle ≠ .created := by
    rintro session deed ⟨rests, begun⟩ member
    have late : deed.Late session :=
      forall_mem_lateDeeds (fun _ => .inl trivial) (.inr ⟨rfl, begun⟩) deed member
    exact ⟨late, rests.settled late, rests.late late, deed.begun begun⟩
  obtain ⟨orderly, nothing, ends, _⟩ := Session.late_run
    (fun session => Rests past session ∧ session.lifecycle ≠ .created) step ⟨idle.1, begun⟩
  have reached := (generate pre main post).faithful studio
  rw [told.deeds] at reached
  rw [told.deeds, nothing, List.append_nil, reached]
  refine ⟨orderly, ends, ?_⟩
  rw [← reached, told.act]
  exact idle.2

section Generating

variable {pre main post : Chronicle ε Unit} (first : pre.IsLate ∧ pre.act.Restores False)
  (second : main.IsLate ∧ main.act.Restores False) (third : post.IsLate ∧ post.act.Restores False)

include first second third

/-- The phases of a template on a new session follow each other, or come to rest in between. -/
theorem generate_leads_fresh :
    Leads (Between .created []) (generate pre main post) (fun _ => Idle) := by
  have opening : Leads (Between .created []) (pre.phase .pre)
      (fun _ => Between .preRunning (whole.take 2)) :=
    phase_leads rfl (by decide) first.1 first.2
  have middle : Leads (Between .preRunning (whole.take 2)) (main.phase .main)
      (fun _ => Between .mainRunning (whole.take 4)) :=
    phase_leads rfl (by decide) second.1 second.2
  have ending : Leads (Between .mainRunning (whole.take 4)) (post.phase .post)
      (fun _ => Between .postRunning whole) :=
    phase_leads rfl (by decide) third.1 third.2
  refine Leads.bind (Leads.bind (remark_leads _) (fun _ => ?_)) link_leads
  refine opening.bind (fun pre => middle.bind (fun main => ending.bind (fun post => ?_)))
  exact register_leads pre main post

theorem generate_leads : Leads Idle (generate pre main post) (fun _ => Idle) := by
  intro past studio idle
  by_cases created : studio.session.lifecycle = .created
  · refine generate_leads_fresh first second third past studio ?_
    cases idle.1 with
    | fresh none_past _ closed => exact ⟨none_past, created, closed, idle.2⟩
    | broken begins failed running => rw [created] at running; cases running
    | finished all_past done closed => cases created.symm.trans done
  · have told := generate_late pre main post created
    have ends := generate_leads_late pre main post created idle
    rw [told.act] at ends ⊢
    exact ends

end Generating

end Chronicle

/-! ## Plans -/

theorem Deed.late_rule : Deed.Rule (fun session => session.lifecycle ≠ .created)
    (fun deed => ∀ session : Session, session.lifecycle ≠ .created → deed.Late session) where
  step := fun {_ deed} holds _ => deed.begun holds
  common := fun {deed} common _ _ => .inl (by cases deed <;> trivial)
  leaves := fun _ _ _ _ _ => .inl trivial

theorem Plan.isLate {ε α : Type} (plan : Plan ε α) : plan.chronicle.IsLate := by
  intro studio begun
  exact plan.obeys Deed.late_rule id (fun _ begun => .inr ⟨rfl, begun⟩) studio begun
    (fun _ _ _ _ => .inl trivial)

/-- The statements of a region have nothing to do with phases. -/
theorem Deed.quiet_rule : Deed.Rule (fun _ => True) Deed.Quiet where
  step := fun _ _ => trivial
  common := fun {deed} common => by cases deed <;> trivial
  leaves := fun _ _ _ => trivial

section Plans

open Chronicle
open Session (Idle)

/-- **Where a plan leads.**  From a session at rest a plan leads to rest, in an orderly run,
whatever templates it runs and whatever fails on its way. -/
theorem Plan.leads {ε α : Type} (plan : Plan ε α) : Leads Idle plan.chronicle (fun _ => Idle) := by
  have ending : ∀ {action : Action Unit} {deed : Deed}
      {does : ∀ session, (deed.perform session).2 = (action session).2}
      (outcome : Except Fault Unit), deed.Quiet → .data ∉ deed.touches →
      Leads Idle ((once action deed does : Chronicle ε Unit).bind fun _ => ofExcept outcome)
        (fun _ => Idle) :=
    fun outcome quiet apart => (leads_once _ quiet apart).bind (fun _ => leads_aloof _ _)
  induction plan with
  | aloof act apart => exact leads_aloof act apart
  | bind first next here there => exact here.bind there
  | attempt body ih => exact ih.attempt
  | locating location body ih => exact ih.locating location
  | scopedBlock kind options location body ih =>
      refine Leads.enclosing (leads_once _ trivial (by simp [Deed.touches])) ih ?_
      exact fun _ _ => leads_once _ trivial (by simp [Deed.touches])
  | withAttributes attributes body ih =>
      refine Leads.enclosing (leads_once _ trivial (by simp [Deed.touches])) ih ?_
      exact fun _ outcome => ending outcome trivial (by simp [Deed.touches])
  | inSection memory location body ih =>
      refine Leads.enclosing (leads_once _ trivial (by simp [Deed.touches])) ih ?_
      exact fun _ outcome => ending _ trivial (by simp [Deed.touches])
  | configureData config location body =>
      refine leads_of_quiet (fun studio => ?_) (fun studio => ?_)
      · exact body.obeys_configureData Deed.quiet_rule config location studio trivial
          (fun _ _ => trivial)
      · exact ((Plan.configureData config location body).restores studio).depth
  | dataRegion region location body =>
      refine leads_of_quiet (fun studio => ?_) (fun studio => ?_)
      · exact body.obeys_dataRegion Deed.quiet_rule region location studio trivial
          (fun _ _ => trivial)
      · exact ((Plan.dataRegion region location body).restores studio).depth
  | generate pre main post =>
      exact generate_leads ⟨pre.isLate, pre.restores.mono False.elim⟩
        ⟨main.isLate, main.restores.mono False.elim⟩ ⟨post.isLate, post.restores.mono False.elim⟩
  | _ => exact leads_once _ trivial (by simp [Deed.touches])

end Plans

end TestProgram