/-
# TestProgram.Proofs.LateFaults -- what fails when the body of a phase has ended

A block is sealed, expanded and finalized when the body of its phase has ended, and the sequences
are bound to each other when all phases have.  Faults of that late hour come from strategies, draws
and references, never from the shape of a value (`Fault.Late`), and they are located where the
block or the call they come from was written.

So if no block and no call of a session was written in a line of a program, no late fault points
at such a line, and the sequences that come of the session point at none either
(`Session.EndsAs.unlined`).  Of a template whose statements keep this `generate_fails` says that it
fails in the body of a phase, or else with a late fault.
-/
import TestProgram.Proofs.Atomicity
import TestProgram.Proofs.Finalization
import TestProgram.Proofs.Generation
import TestProgram.Proofs.RaisedFaults
import TestProgram.Proofs.Unlined

namespace TestProgram

set_option autoImplicit false

open TestProgram.Computation

/-! ## Faults of the late hour -/

namespace Fault

/-- The fault is not about the shape of a value, and does not point at a line of a program. -/
def Late (fault : Fault) : Prop :=
  fault.kind ≠ .type ∧ Unlined fault.location

variable {fault : Fault}

theorem Untyped.late (untyped : fault.Untyped) : fault.Late := by
  obtain ⟨unplaced, kind⟩ := untyped
  exact ⟨kind, unplaced ▸ unlined_none⟩

theorem late_of {cause : Cause} (untyped : cause.kind ≠ .type) : (Fault.of cause).Late :=
  (untyped_of untyped).late

theorem Late.locate? (late : fault.Late) {location : Option Location} (unlined : Unlined location) :
    (fault.locate? location).Late := by
  obtain ⟨kind, placed⟩ := late
  cases location with
  | none => exact ⟨kind, placed⟩
  | some new =>
      refine ⟨kind, ?_⟩
      rcases known : fault.location with _ | (_ | _)
      · rw [Fault.locate?, Fault.locate, known]
        exact unlined
      · exact absurd known (placed _ _ _)
      · rw [Fault.locate?, Fault.locate, known]
        exact unlined_span _ _ _

end Fault

theorem Fails.locate? {α : Type} {outcome : Except Fault α} {location : Option Location}
    (unlined : Unlined location) (fails : Fails Fault.Late outcome) :
    Fails Fault.Late (outcome.mapError (fun fault => fault.locate? location)) := by
  intro fault failed
  obtain ⟨cause, here, rfl⟩ := Except.mapError_error_iff.mp failed
  exact (fails cause here).locate? unlined

/-! ## Raising -/

namespace Generation

variable {α : Type} {P : Fault → Prop}

theorem raises_ofExcept {outcome : Except Fault α} (fails : Fails P outcome) :
    Raises P (ofExcept outcome) :=
  fun _ fault failed => fails fault failed

theorem raises_draw (draw : Draw α) : Raises P (Generation.draw draw) := by
  intro engine fault failed
  cases failed

theorem raises_remark (made : Remark) : Raises P (remark made) :=
  raises_modify _

theorem raises_sample {sampler : Distribution.Sampler α} (raises : Raises P sampler) :
    Raises P (sample sampler) :=
  fun engine fault failed => raises engine.random fault failed

/-- What goes wrong at a place that is no line of a program points at none. -/
theorem raises_locating {location : Option Location} (place : Unlined location)
    {body : Generation α} (raises : Raises Fault.Late body) :
    Raises Fault.Late (locating location body) := by
  intro engine fault failed
  rw [locating] at failed
  obtain ⟨cause, here, rfl⟩ := Except.mapError_error_iff.mp failed
  exact (raises engine cause here).locate? place

end Generation

namespace Expansion

open Generation

variable {registry : Registry Call}

theorem untyped_composition (kind : BlockKind) (strategies : StrategySet) :
    Fails Fault.Untyped (composition registry kind strategies) := by
  cases kind with
  | sequence | atomic | iterate => exact fails_ok _
  | free =>
      exact (untyped_lookup _ _ _).bind (fun _ => (untyped_lookup _ _ _).bind
        (fun _ => (untyped_lookup _ _ _).bind (fun _ => fails_ok _)))

theorem untyped_finishing (strategies : StrategySet) :
    Fails Fault.Untyped (finishing registry strategies) :=
  (untyped_lookup _ _ _).bind (fun _ => (untyped_lookup _ _ _).bind (fun _ => fails_ok _))

theorem raises_finished (info : BlockInfo) (streams : List (Stream Call)) :
    Raises Fault.Untyped (finished registry info streams) :=
  (raises_ofExcept (untyped_finishing _)).bind (fun _ => (raises_draw _).bind (fun _ =>
    (raises_remark _).bind (fun _ => raises_pure _)))

theorem raises_expandAll {children : List (Tree Call)}
    (each : ∀ child ∈ children, Raises Fault.Late (expand registry child)) :
    Raises Fault.Late (expandAll registry children) := by
  induction children with
  | nil => exact raises_pure _
  | cons child rest ih =>
      rw [expandAll]
      refine (each child List.mem_cons_self).bind (fun streams => ?_)
      exact (ih (fun other member => each other (List.mem_cons_of_mem _ member))).bind
        (fun _ => raises_pure _)

theorem raises_expand {tree : Tree Call} (unlined : tree.Unlined) :
    Raises Fault.Late (expand registry tree) := by
  induction unlined with
  | leaf place => exact raises_pure _
  | block place each ih =>
      rw [expand]
      refine raises_locating place ?_
      refine ((raises_ofExcept (untyped_composition _ _)).mono (fun _ => Fault.Untyped.late)).bind
        (fun compose => ?_)
      refine (raises_expandAll ih).bind (fun alternatives => ?_)
      refine (raises_draw _).bind (fun streams => ?_)
      exact (raises_finished _ _).mono (fun _ => Fault.Untyped.late)

end Expansion

/-! ### Finalizing -/

theorem Argument.raises_settle (argument : Argument) :
    Raises Fault.Untyped argument.settle := by
  cases argument with
  | value scalar => exact raises_pure _
  | random distribution =>
      exact (DataDesk.raises_sample distribution).bind (fun _ => raises_pure _)
  | range lowest highest =>
      exact (DataDesk.raises_between lowest highest).bind (fun _ => raises_pure _)
  | label reference => exact raises_pure _
  | address reference => exact raises_pure _

theorem Call.raises_settle {call : Call} (place : Unlined call.location) :
    Raises Fault.Late call.settle :=
  Generation.raises_locating place (Generation.raises_sample
    ((Raises.mapM (fun argument _ => argument.raises_settle)).mono (fun _ => Fault.Untyped.late)))

theorem raises_finalizeCalls (strong : List String) {calls : List Call}
    (places : ∀ call ∈ calls, Unlined call.location) :
    ∀ ledger, Raises Fault.Late (finalizeCalls strong ledger calls) := by
  induction calls with
  | nil => exact fun ledger => raises_pure _
  | cons call rest ih =>
      intro ledger
      rw [finalizeCalls]
      refine (Call.raises_settle (places call List.mem_cons_self)).bind (fun operands => ?_)
      refine (Raises.forM (fun _ => Generation.raises_remark _) _).bind (fun _ => ?_)
      exact (ih (fun other member => places other (List.mem_cons_of_mem _ member)) _).bind
        (fun _ => raises_pure _)

/-! ### Sequences -/

/-- No instruction was written in a line of a program. -/
def Sequence.Unlined (sequence : Sequence) : Prop :=
  ∀ instruction ∈ sequence, TestProgram.Unlined instruction.location

/-- No instruction of the phase was written in a line of a program. -/
def Phase.Unlined (phase : Phase) : Prop :=
  ∀ sequence ∈ phase.sequences, sequence.Unlined

theorem Expansion.emissions_unlined {tree : Tree Call} (unlined : tree.Unlined)
    {engine after : Engine} {streams : List (Stream Call)}
    (expanded : expand Strategy.builtins tree engine = (.ok streams, after)) :
    ∀ stream ∈ streams, ∀ call ∈ stream.emissions, Unlined call.location := by
  intro stream member call emitted
  obtain ⟨unit, inside, held⟩ := List.mem_flatten.mp emitted
  exact unlined.calls call
    (expand_calls Strategy.builtins_lawful tree expanded stream member unit inside call held)

theorem finalize_unlined {stream : Stream Call} {engine after : Engine} {sequence : Sequence}
    (places : ∀ call ∈ stream.emissions, Unlined call.location)
    (run : finalize stream engine = (.ok sequence, after)) : sequence.Unlined := by
  intro instruction member
  obtain ⟨call, emitted, operands, labels, rfl⟩ :=
    Paired.exists_partner (finalize_stands run) instruction member
  exact places call emitted

namespace Session

variable {session after : Session}

/-- Sequences of a tree without lines have none, and a fault met on the way points at none. -/
theorem generateSequences_unlined {block : Block Call} (unlined : session.Unlined)
    (tree : block.toTree.Unlined) {outcome : Except Fault (List Sequence)}
    (run : generateSequences block session = (outcome, after)) :
    (∀ fault, outcome = .error fault → fault.Late) ∧
      ∀ sequences, outcome = .ok sequences → ∀ sequence ∈ sequences, sequence.Unlined := by
  rw [generateSequences, bind_run] at run
  replace run : Action.generation _ session = _ := run
  rw [unlined.registry] at run
  rcases body : (do
      let streams ← Expansion.expand Strategy.builtins block.toTree
      streams.mapM finalize) session.engine with ⟨ended, engine⟩
  simp only [Action.generation, body] at run
  cases run
  constructor
  · rintro fault rfl
    rcases bind_error_iff.mp body with expanding | ⟨streams, middle, expanded, finalizing⟩
    · exact Expansion.raises_expand tree session.engine fault (congrArg Prod.fst expanding)
    · obtain ⟨stream, member, before, here⟩ := mapM_error finalizing
      exact raises_finalizeCalls _ (Expansion.emissions_unlined tree expanded stream member) _
        before fault (congrArg Prod.fst here)
  · rintro sequences rfl sequence member
    obtain ⟨streams, middle, expanded, finalized⟩ := bind_ok_iff.mp body
    obtain ⟨stream, listed, before, after, settled⟩ :=
      Paired.exists_partner (mapM_ok finalized) sequence member
    exact finalize_unlined (Expansion.emissions_unlined tree expanded stream listed) settled

/-- A block that does not close was refused where it was written. -/
theorem raises_closeBlock (unlined : session.Unlined) {handle : BlockHandle} {fault : Fault}
    (refused : closeBlock handle session = (.error fault, after)) : fault.Late := by
  unfold closeBlock at refused
  cases stack : session.blocks with
  | nil =>
      simp only [stack] at refused
      cases refused
      exact Fault.late_of (by simp [Cause.kind])
  | cons top outer =>
      have opened := unlined.blocks top (by rw [stack]; exact List.mem_cons_self)
      simp only [stack] at refused
      split at refused
      · split at refused
        · rename_i cause failed
          cases refused
          obtain ⟨cause, checks, rfl⟩ := Except.mapError_error_iff.mp failed
          obtain ⟨_, _, _, location⟩ := flushed_same top session.currentSection
          refine (untyped_checks _ _ _ cause checks).late.locate? ?_
          rw [location]
          exact opened.1
        · cases refused
      · cases refused
        exact Fault.late_of (by simp [Cause.kind])

theorem takePhaseBlock_unlined (unlined : session.Unlined) {kind : PhaseKind}
    {outcome : Except Fault (Block Call)}
    (run : takePhaseBlock kind session = (outcome, after)) :
    (∀ fault, outcome = .error fault → fault.Late) ∧
      ∀ block, outcome = .ok block → block.toTree.Unlined := by
  rw [takePhaseBlock, bind_run] at run
  rcases closes : closeBlock ⟨BlockId.root, 0⟩ session with ⟨fault | _, closed⟩
  · rw [closes] at run
    cases run
    refine ⟨fun other same => ?_, fun block same => by cases same⟩
    cases same
    exact raises_closeBlock unlined closes
  · have kept := (keeps_closeBlock _).after unlined closes
    rw [closes] at run
    replace run : ((get : Action Session) >>= _) closed = (outcome, after) := run
    rw [bind_run, get_run] at run
    cases completed : closed.completed with
    | none =>
        simp only [completed] at run
        cases run
        refine ⟨fun other same => ?_, fun block same => by cases same⟩
        cases same
        exact Fault.late_of (by simp [Cause.kind])
    | some block =>
        simp only [completed] at run
        cases run
        refine ⟨fun other same => (by cases same), fun other same => ?_⟩
        cases same
        exact kept.completed block completed

/-- What fails at the end of a phase whose body has ended well. -/
theorem endPhase_late (unlined : session.Unlined) {kind : PhaseKind} {fault : Fault}
    (run : endPhase kind (.ok ()) session = (.error fault, after)) : fault.Late := by
  rcases bind_error_iff.mp run with none_here | ⟨_, _, here, run⟩
  · cases none_here
  cases here
  dsimp only at run
  split at run
  · rcases bind_error_iff.mp run with none_here | ⟨_, _, _, failed⟩
    · cases none_here
    · rcases bind_error_iff.mp failed with thrown | ⟨_, _, thrown, _⟩
      · cases thrown
        exact Fault.late_of (by simp [Cause.kind])
      · cases thrown
  · rcases bind_error_iff.mp run with taking | ⟨block, taken, takes, run⟩
    · exact (takePhaseBlock_unlined unlined taking).1 fault rfl
    · have tree := (takePhaseBlock_unlined unlined takes).2 block rfl
      have kept := (keeps_takePhaseBlock kind).after unlined takes
      rcases bind_error_iff.mp run with generating | ⟨_, _, _, run⟩
      · exact (generateSequences_unlined kept tree generating).1 fault rfl
      · rcases bind_error_iff.mp run with none_here | ⟨_, _, _, ended⟩
        · cases none_here
        · cases ended

/-- The sequences of a phase inherit it. -/
theorem EndsAs.unlined {kind : PhaseKind} {block : OpenBlock} {phase : Phase}
    (ends : EndsAs session kind block phase) (unlined : session.Unlined) : phase.Unlined := by
  obtain ⟨last, generated⟩ := ends.generated
  obtain ⟨placed, each⟩ := unlined.blocks block (by rw [ends.only]; exact List.mem_cons_self)
  have tree : phase.block.toTree.Unlined := by
    rw [ends.sealed]
    exact flushed_unlined placed each _
  have kept : (session.withoutPhaseBlock (block.flushed session.currentSection)).Unlined :=
    ⟨unlined.registry, (by intro block member; cases member), by
      intro block none_left
      cases none_left⟩
  exact (generateSequences_unlined kept tree generated).2 phase.sequences rfl

end Session

/-! ### Registering and linking -/

theorem Phase.Unlined.numbered {phase : Phase} (unlined : phase.Unlined) :
    ∀ sequence ∈ phase.numbered, sequence.instructions.Unlined := by
  intro sequence member
  obtain ⟨⟨instructions, number⟩, listed, rfl⟩ := List.mem_map.mp member
  exact unlined instructions (List.fst_mem_of_mem_zipIdx listed)

namespace LabelIndex

theorem untyped_addGlobal (index : LabelIndex) (name : String) (target : LabelTarget) :
    Fails Fault.Untyped (index.addGlobal name target) := by
  unfold addGlobal
  split
  · exact fails_error (Fault.untyped_of (by simp [Cause.kind]))
  · exact fails_ok _

theorem untyped_addData (index : LabelIndex) (label : Label) (target : LabelTarget) :
    Fails Fault.Untyped (index.addData label target) := by
  unfold addData
  dsimp only
  split
  · exact (untyped_addGlobal _ _ _).bind (fun _ => fails_ok _)
  · exact fails_ok _

theorem late_addFrom (phase : PhaseKind) (number : Nat) {instructions : Sequence}
    (unlined : instructions.Unlined) :
    ∀ position index, Fails Fault.Late (addFrom phase number position index instructions) := by
  induction instructions with
  | nil => exact fun _ index => fails_ok index
  | cons instruction rest ih =>
      intro position index
      refine Fails.bind ?_ (fun index =>
        ih (fun other member => unlined other (List.mem_cons_of_mem _ member)) _ index)
      refine Fails.locate? (unlined instruction List.mem_cons_self)
        ((Fails.foldlM (fun placed _ held => ?_) index).mono (fun _ => Fault.Untyped.late))
      exact untyped_addGlobal _ _ _

theorem late_ofAll (labels : List (Label × LabelTarget)) {sequences : List NumberedSequence}
    (unlined : ∀ sequence ∈ sequences, sequence.instructions.Unlined) :
    Fails Fault.Late (ofAll labels sequences) := by
  refine Fails.bind ?_ (fun index => ?_)
  · exact (Fails.foldlM (fun _ _ _ => untyped_addData _ _ _) _).mono
      (fun _ => Fault.Untyped.late)
  · exact Fails.foldlM (fun sequence member held =>
      late_addFrom _ _ (unlined sequence member) 0 held) index

theorem untyped_resolveOperand (index : LabelIndex) (phase : PhaseKind) (number : Nat)
    (instructions : Sequence) (position : Nat) (operand : Operand) :
    Fails Fault.Untyped (index.resolveOperand phase number instructions position operand) := by
  unfold resolveOperand
  split
  · split
    · exact fails_ok _
    · exact fails_error (Fault.untyped_of (by simp [Cause.kind]))
  · exact fails_ok _

theorem late_resolve (index : LabelIndex) (phase : PhaseKind) (number : Nat)
    {instructions : Sequence} (unlined : instructions.Unlined) :
    Fails Fault.Late (index.resolve phase number instructions) := by
  refine Fails.mapM (fun entry member => Fails.bind ?_ (fun _ => fails_ok _))
  refine Fails.locate? (unlined entry.1 (List.fst_mem_of_mem_zipIdx member))
    ((Fails.mapM (fun operand _ => ?_)).mono (fun _ => Fault.Untyped.late))
  exact untyped_resolveOperand _ _ _ _ _ operand

theorem raises_link (index : LabelIndex) {sequence : NumberedSequence}
    (unlined : sequence.instructions.Unlined) : Raises Fault.Late (index.link sequence) :=
  (Generation.raises_ofExcept (late_resolve _ _ _ unlined)).bind (fun _ =>
    (Raises.forM (fun _ => Generation.raises_remark _) _).bind (fun _ => raises_pure _))

end LabelIndex

namespace Session

theorem raises_linkPhase (index : LabelIndex) {phase : Phase} (unlined : phase.Unlined) :
    Raises Fault.Late (linkPhase index phase) := by
  refine Raises.bind ?_ (fun _ => raises_pure _)
  have walk : Raises Fault.Late (phase.numbered.mapM index.link) :=
    Raises.mapM (fun sequence member => index.raises_link (unlined.numbered sequence member))
  exact fun session fault failed => walk session.engine fault failed

theorem raises_link {program : Program} (pre : program.pre.Unlined)
    (main : program.main.Unlined) (post : program.post.Unlined) :
    Raises Fault.Late (link program) :=
  (raises_linkPhase _ pre).bind (fun _ => (raises_linkPhase _ main).bind (fun _ =>
    (raises_linkPhase _ post).bind (fun _ => raises_get.bind (fun _ => raises_pure _))))

theorem raises_register {pre main post : Phase} (first : pre.Unlined) (second : main.Unlined)
    (third : post.Unlined) : Raises Fault.Late (register pre main post) := by
  have closing : Raises Fault.Late finishLifecycle := by
    intro session fault failed
    unfold finishLifecycle at failed
    split at failed
    · cases failed
    · cases failed
      exact Fault.late_of (by simp [Cause.kind])
  have numbered : ∀ sequence ∈ [pre, main, post].flatMap Phase.numbered,
      sequence.instructions.Unlined := by
    intro sequence member
    obtain ⟨phase, listed, numbered⟩ := List.mem_flatMap.mp member
    simp only [List.mem_cons, List.not_mem_nil, or_false] at listed
    rcases listed with rfl | rfl | rfl
    · exact first.numbered sequence numbered
    · exact second.numbered sequence numbered
    · exact third.numbered sequence numbered
  refine closing.bind (fun _ => raises_get.bind (fun session => ?_))
  dsimp only
  split
  · exact raises_throw_bind (Fault.late_of (by simp [Cause.kind])) _
  · refine Raises.bind (fun session fault failed => by cases failed) (fun data => ?_)
    exact (Action.raises_ofExcept (LabelIndex.late_ofAll _ numbered)).bind
      (fun _ => raises_pure _)

theorem raises_beginPhase (kind : PhaseKind) : Raises Fault.Late (beginPhase kind) := by
  refine Raises.bind (fun session fault failed => ?_) (fun _ =>
    Raises.bind (fun session fault failed => ?_) (fun _ => raises_pure _))
  · unfold enterPhase at failed
    split at failed
    · cases failed
    · cases failed
      exact Fault.late_of (by simp [Cause.kind])
  · unfold openBlock at failed
    split at failed
    · cases failed
    · split at failed
      · cases failed
      · cases failed
        exact Fault.late_of (by simp [Cause.kind])

end Session

/-! ## Templates -/

variable {ε : Type}

namespace Act

variable {kind : PhaseKind} {body : Act ε Unit} {studio after : Studio ε}

theorem raises_startPhase (kind : PhaseKind) :
    Raises Fault.Late (startPhase kind : Act ε Unit) :=
  (raises_session (Action.raises_remark _)).bind
    (fun _ => raises_session (Session.raises_beginPhase kind))

/-- The body of a phase that has been made has ended well. -/
theorem runPhase_body {begun : Studio ε} (starts : startPhase kind studio = (.ok (), begun))
    {phase : Phase} (run : runPhase kind body studio = (.ok phase, after)) :
    ∃ ended, body begun = (.ok (), ended) := by
  obtain ⟨_, ended, _, also_starts, ran, _⟩ := runPhase_ok run
  cases starts.symm.trans also_starts
  exact ⟨ended, ran⟩

variable (keeps : Keeps Studio.Unlined body) (unlined : studio.Unlined)

include keeps unlined

/-- A phase that fails although it has begun has failed in its body, or late. -/
theorem runPhase_late {begun : Studio ε} (starts : startPhase kind studio = (.ok (), begun))
    {fault : Fault} (run : runPhase kind body studio = (.error fault, after)) :
    (∃ ended, body begun = (.error fault, ended)) ∨
      (∃ ended, body begun = (.ok (), ended)) ∧ fault.Late := by
  rcases ran : body begun with ⟨cause | _, ended⟩
  · rw [runPhase_begun starts ran] at run
    cases run
    exact .inl ⟨ended, rfl⟩
  · have unlined_begun := (keeps_startPhase Studio.robust_unlined kind).after unlined starts
    have unlined_still := keeps.after unlined_begun ran
    rw [runPhase_begun starts ran] at run
    rcases closed : Session.endPhase kind (.ok ()) ended.session with ⟨outcome, last⟩
    simp only [session, closed] at run
    cases run
    exact .inr ⟨⟨ended, rfl⟩, Session.endPhase_late unlined_still closed⟩

theorem runPhase_fails {fault : Fault}
    (run : runPhase kind body studio = (.error fault, after)) :
    fault.Late ∨ ∃ begun ended, body begun = (.error fault, ended) := by
  rcases starts : startPhase kind studio with ⟨cause | _, begun⟩
  · have late := raises_startPhase kind studio cause (by rw [starts])
    rw [runPhase_eq, bind_run, starts] at run
    cases run
    exact .inl late
  · rcases runPhase_late keeps unlined starts run with ⟨ended, ran⟩ | ⟨_, late⟩
    · exact .inr ⟨begun, ended, ran⟩
    · exact .inl late

/-- What a phase has made was not written in lines of a program either. -/
theorem runPhase_unlined {phase : Phase} (run : runPhase kind body studio = (.ok phase, after)) :
    phase.Unlined := by
  obtain ⟨begun, ended, block, starts, ran, ends⟩ := runPhase_ok run
  have unlined_begun := (keeps_startPhase Studio.robust_unlined kind).after unlined starts
  exact ends.unlined (keeps.after unlined_begun ran)

end Act

namespace Template

/-- What is done before the body of the first phase. -/
def start : Act ε Unit := do
  Act.session (do Action.remark (.generating (← get).settings.seed))
  Act.startPhase .pre

/-- The fault is one of the body of the first phase, or that body has ended well, and the fault is
one of another body or a late one. -/
def FailsFrom (template : Template ε) (begun : Studio ε) (fault : Fault) : Prop :=
  (∃ ended, template.pre begun = (.error fault, ended)) ∨
    (∃ ended, template.pre begun = (.ok (), ended)) ∧
      (fault.Late ∨ ∃ found ended, template.main found = (.error fault, ended) ∨
        template.post found = (.error fault, ended))

theorem keeps_generating : Keeps Studio.Unlined (Act.session (do
    Action.remark (.generating (← get).settings.seed)) : Act ε Unit) :=
  Studio.robust_unlined.session (keeps_get.bind (fun _ => (Action.apart_remark _).keeps))

section Faults

variable {template : Template ε} {studio begun after : Studio ε}
  (pre_keeps : Keeps Studio.Unlined template.pre) (main_keeps : Keeps Studio.Unlined template.main)
  (post_keeps : Keeps Studio.Unlined template.post) (unlined : studio.Unlined)
  (starts : start studio = (.ok (), begun))

include pre_keeps main_keeps post_keeps unlined starts

theorem phases_late {fault : Fault} (run : template.phases studio = (.error fault, after)) :
    template.FailsFrom begun fault := by
  obtain ⟨_, first, remarked, starts⟩ := bind_ok_iff.mp starts
  have unlined_first := keeps_generating.after unlined remarked
  rw [phases, bind_run, remarked] at run
  rcases bind_error_iff.mp run with failed | ⟨pre, second, pre_run, run⟩
  · exact (Act.runPhase_late pre_keeps unlined_first starts failed).imp_right (And.imp_right .inl)
  have unlined_second :=
    (Act.keeps_runPhase Studio.robust_unlined pre_keeps _).after unlined_first pre_run
  refine .inr ⟨Act.runPhase_body starts pre_run, ?_⟩
  rcases bind_error_iff.mp run with failed | ⟨main, third, main_run, run⟩
  · rcases Act.runPhase_fails main_keeps unlined_second failed with late | ⟨found, ended, ran⟩
    · exact .inl late
    · exact .inr ⟨found, ended, .inl ran⟩
  have unlined_third :=
    (Act.keeps_runPhase Studio.robust_unlined main_keeps _).after unlined_second main_run
  rcases bind_error_iff.mp run with failed | ⟨post, fourth, post_run, ended⟩
  · rcases Act.runPhase_fails post_keeps unlined_third failed with late | ⟨found, ended, ran⟩
    · exact .inl late
    · exact .inr ⟨found, ended, .inr ran⟩
  · cases ended

theorem phases_unlined {pre main post : Phase}
    (run : template.phases studio = (.ok (pre, main, post), after)) :
    (∃ ended, template.pre begun = (.ok (), ended)) ∧
      pre.Unlined ∧ main.Unlined ∧ post.Unlined := by
  obtain ⟨_, first, remarked, starts⟩ := bind_ok_iff.mp starts
  have unlined_first := keeps_generating.after unlined remarked
  rw [phases, bind_run, remarked] at run
  obtain ⟨_, second, pre_run, run⟩ := bind_ok_iff.mp run
  have unlined_second :=
    (Act.keeps_runPhase Studio.robust_unlined pre_keeps _).after unlined_first pre_run
  obtain ⟨_, third, main_run, run⟩ := bind_ok_iff.mp run
  have unlined_third :=
    (Act.keeps_runPhase Studio.robust_unlined main_keeps _).after unlined_second main_run
  obtain ⟨_, fourth, post_run, run⟩ := bind_ok_iff.mp run
  cases run
  exact ⟨Act.runPhase_body starts pre_run, Act.runPhase_unlined pre_keeps unlined_first pre_run,
    Act.runPhase_unlined main_keeps unlined_second main_run,
    Act.runPhase_unlined post_keeps unlined_third post_run⟩

/-- **Late faults.**  If the statements of a template make no block and no call in a line of a
program, then a fault that the template comes to is one of a body, or it is a late one. -/
theorem generate_fails {fault : Fault} (run : template.generate studio = (.error fault, after)) :
    template.FailsFrom begun fault := by
  rcases phased : template.phases studio with ⟨cause | ⟨pre, main, post⟩, last⟩
  · rw [generate, bind_run, program_run, phased] at run
    cases run
    exact phases_late pre_keeps main_keeps post_keeps unlined starts phased
  · obtain ⟨opened, first, second, third⟩ :=
      phases_unlined pre_keeps main_keeps post_keeps unlined starts phased
    refine .inr ⟨opened, .inl ?_⟩
    have programs : template.program studio =
        Act.session (Session.register pre main post) last := by rw [program_run, phased]
    rcases bind_error_iff.mp run with registering | ⟨program, registered, registers, linking⟩
    · rw [programs] at registering
      exact Act.raises_session (Session.raises_register first second third) last fault
        (congrArg Prod.fst registering)
    · rw [programs] at registers
      obtain ⟨rfl, rfl, rfl, _⟩ := Session.register_ok (Act.session_ok registers)
      exact Act.raises_session (Session.raises_link first second third) registered fault
        (congrArg Prod.fst linking)

end Faults

end Template

end TestProgram
