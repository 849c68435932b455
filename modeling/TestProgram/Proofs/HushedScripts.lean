/-
# TestProgram.Proofs.HushedScripts -- scripts without their texts and comments

`Script.Step.silencedAll` is a script without its statements of texts and comments, those of its
data regions among them.  Run beside the script itself it goes through the same outcomes and
keeps to the same session but for texts and comments (`Script.runAll_inStep`).
-/
import TestProgram.Proofs.HushedStudios
import TestProgram.Script.Run

namespace TestProgram

set_option autoImplicit false

open Strategy (Agree)
open TestProgram.Computation

namespace Script

/-! ## Notebooks -/

/-- Two notebooks with the same values, whose traces may differ; the blocks that a script can
close are inside that of the phase. -/
structure Notebook.Alike (here there : Notebook) : Prop where
  distributions : here.distributions = there.distributions
  situations : here.situations = there.situations
  handles : here.handles = there.handles
  deep : ∀ entry ∈ here.handles, 0 < entry.2.depth

abbrev Abreast (depth : Nat) : Studio Notebook → Studio Notebook → Prop :=
  Studio.Abreast Notebook.Alike depth

section Notebooks

variable {depth : Nat} {α β : Type} {V : α → β → Prop}

theorem note_inStep (event other : Event) :
    InStep (Abreast depth) Eq (note event) (note other) :=
  inStep_modify (fun _ _ abreast => { abreast with memory := { abreast.memory with } })

theorem edit_inStep {change : Notebook → Notebook} (kept : ∀ here there,
    Notebook.Alike here there → Notebook.Alike (change here) (change there)) :
    InStep (Abreast depth) Eq (edit change) (edit change) :=
  inStep_modify (fun _ _ abreast => { abreast with memory := kept _ _ abreast.memory })

theorem notebook_inStep : InStep (Abreast depth) Notebook.Alike notebook notebook :=
  inStep_get.bind (fun _ _ abreast => inStep_pure abreast.memory)

theorem distributionAt_inStep (key : String) :
    InStep (Abreast depth) Eq (distributionAt key) (distributionAt key) := by
  refine notebook_inStep.bind (fun here there alike => ?_)
  rw [alike.distributions]
  split
  · exact inStep_pure rfl
  · exact inStep_throw _

theorem situationAt_inStep (key : String) :
    InStep (Abreast depth) Eq (situationAt key) (situationAt key) := by
  refine notebook_inStep.bind (fun here there alike => ?_)
  rw [alike.situations]
  split
  · exact inStep_pure rfl
  · exact inStep_throw _

/-- Blocks that a script knows are not that of the phase. -/
theorem handleAt_inStep (key : String) :
    InStep (Abreast depth) (fun handle other => handle = other ∧ 0 < handle.depth)
      (handleAt key) (handleAt key) := by
  refine notebook_inStep.bind (fun here there alike => ?_)
  rw [← alike.handles]
  split
  · rename_i handle found
    exact inStep_pure ⟨rfl, alike.deep _ (KeyMap.mem_of_find? found)⟩
  · exact inStep_throw _

theorem recorded_inStep {body silent : Run Answer} {V : Answer → Answer → Prop} (verb : String)
    (together : InStep (Abreast depth) V body silent) :
    InStep (Abreast depth) Eq (recorded verb body) (recorded verb silent) := by
  refine (Act.attempt_inStep together).bind (fun outcome other ended => ?_)
  refine inStep_get.bind (fun _ _ _ => ?_)
  refine (note_inStep _ _).bind (fun _ _ _ => ?_)
  exact Act.ofExcept_inStep (Agree.unit ended)

theorem recordedData_inStep {body silent : Run Unit} (verb : String)
    (together : InStep (Abreast depth) Eq body silent) :
    InStep (Abreast depth) Eq (recordedData verb body) (recordedData verb silent) := by
  refine (Act.attempt_inStep together).bind (fun outcome other ended => ?_)
  exact (note_inStep _ _).bind (fun _ _ _ => Act.ofExcept_inStep ended)

/-- What makes no difference does not fail. -/
theorem attempt_unseen {body : Run α} {answer : β}
    (unseen : InStep (Abreast depth) V body (pure answer)) :
    InStep (Abreast depth) (fun outcome _ => ∃ value, outcome = .ok value)
      (Act.attempt body) (pure ()) := by
  intro first second abreast
  obtain ⟨agree, after⟩ := unseen first second abreast
  exact ⟨.ok (Agree.exists_ok agree), after⟩

theorem note_unseen (event : Event) : InStep (Abreast depth) Eq (note event) (pure ()) :=
  fun _ _ abreast => ⟨.ok rfl, { abreast with memory := { abreast.memory with } }⟩

/-- A step that makes no difference makes none when it is recorded. -/
theorem recorded_unseen {body : Run Answer} {answer : β} (verb : String)
    (unseen : InStep (Abreast depth) (fun _ _ => True) body (pure answer)) :
    InStep (Abreast depth) Eq (recorded verb body) (pure ()) := by
  have both : InStep (Abreast depth) Eq (recorded verb body)
      ((pure () : Run Unit) >>= fun _ => (get : Run (Studio Notebook)) >>= fun _ => pure ()) := by
    refine (attempt_unseen unseen).bind ?_
    rintro _ _ ⟨value, rfl⟩
    refine inStep_get.bind (fun _ _ _ => ?_)
    exact InStep.before (note_unseen _) (inStep_pure rfl)
  exact both

theorem recordedData_unseen {body : Run Unit} (verb : String)
    (unseen : InStep (Abreast depth) Eq body (pure ())) :
    InStep (Abreast depth) Eq (recordedData verb body) (pure ()) := by
  have both : InStep (Abreast depth) Eq (recordedData verb body)
      ((pure () : Run Unit) >>= fun _ => pure ()) := by
    refine (attempt_unseen unseen).bind ?_
    rintro _ _ ⟨value, rfl⟩
    exact InStep.before (note_unseen _) (inStep_pure rfl)
  exact both

theorem attempted_inStep {body silent : Run Unit}
    (together : InStep (Abreast depth) Eq body silent) :
    InStep (Abreast depth) Eq (attempted body) (attempted silent) :=
  (Act.attempt_inStep together).bind (fun _ _ _ => inStep_pure rfl)

theorem attempted_unseen {body : Run Unit} (unseen : InStep (Abreast depth) Eq body (pure ())) :
    InStep (Abreast depth) Eq (attempted body) (pure ()) := by
  have both : InStep (Abreast depth) Eq (attempted body)
      ((pure () : Run Unit) >>= fun _ => pure ()) :=
    (attempt_unseen unseen).bind (fun _ _ _ => inStep_pure rfl)
  exact both

end Notebooks

/-! ## Values -/

section Values

variable {depth : Nat}

theorem range_inStep (spec : RangeSpec) : InStep (Abreast depth) Eq spec.range spec.range := by
  have value : InStep (Abreast depth) Eq spec.source.value spec.source.value := by
    unfold RangeSource.value
    split
    · exact inStep_pure rfl
    · exact inStep_pure rfl
    · refine (distributionAt_inStep _).bind ?_
      rintro distribution _ rfl
      exact inStep_pure rfl
  refine value.bind ?_
  rintro value _ rfl
  exact Act.ofExcept_inStep (Agree.refl _)

theorem toAttribute_inStep (source : SituationSource) :
    InStep (Abreast depth) Eq source.toAttribute source.toAttribute := by
  unfold SituationSource.toAttribute
  split
  · exact inStep_pure rfl
  · refine (distributionAt_inStep _).bind ?_
    rintro distribution _ rfl
    exact inStep_pure rfl

theorem argument_inStep (spec : ArgumentSpec) :
    InStep (Abreast depth) Eq spec.argument spec.argument := by
  unfold ArgumentSpec.argument
  split
  · exact inStep_pure rfl
  · exact Act.ofExcept_inStep (Agree.refl _)
  · refine (distributionAt_inStep _).bind ?_
    rintro distribution _ rfl
    exact inStep_pure rfl
  · refine inStep_get.bind (fun here there abreast => inStep_pure ?_)
    rw [Session.labelReference, abreast.session.scope]
    rfl
  · refine inStep_get.bind (fun here there abreast => ?_)
    have same : ∀ index forward, Session.numericReference index forward site here.session =
        Session.numericReference index forward site there.session := by
      intro index forward
      rw [Session.numericReference, abreast.session.scope]
      rfl
    simp only [same]
    refine (Act.ofExcept_inStep (Agree.refl _)).bind ?_
    rintro reference _ rfl
    exact inStep_pure rfl
  · refine (Act.ofExcept_inStep (Agree.refl _)).bind ?_
    rintro reference _ rfl
    exact inStep_pure rfl

theorem dataArgument_inStep (spec : ArgumentSpec) :
    InStep (Abreast depth) Eq spec.dataArgument spec.dataArgument := by
  unfold ArgumentSpec.dataArgument
  split
  · exact inStep_pure rfl
  · exact inStep_pure rfl
  · refine (Act.ofExcept_inStep (Agree.refl _)).bind ?_
    rintro slot _ rfl
    exact inStep_pure rfl
  · exact argument_inStep _

/-- A call of a script brings no texts along. -/
theorem call_inStep (spec : CallSpec) :
    InStep (Abreast depth) (fun call other => call = other ∧ call.outputs = []) spec.call
      spec.call := by
  refine (inStep_mapM_same _ (fun argument _ => argument_inStep argument)).bind ?_
  rintro arguments _ rfl
  have situation : InStep (Abreast depth) Eq (spec.situation.mapM situationAt)
      (spec.situation.mapM situationAt) := by
    cases spec.situation with
    | none => exact inStep_pure rfl
    | some key =>
        refine (situationAt_inStep key).bind ?_
        rintro situation _ rfl
        exact inStep_pure rfl
  refine situation.bind ?_
  rintro situation _ rfl
  refine (Act.ofExcept_inStep (Agree.refl _)).bind ?_
  rintro labels _ rfl
  exact inStep_pure ⟨rfl, rfl⟩

end Values

/-! ## Statements -/

section Statements

variable {depth : Nat}

theorem done_inStep {body silent : Run Unit} (together : InStep (Abreast depth) Eq body silent) :
    InStep (Abreast depth) Eq (done body) (done silent) :=
  together.bind (fun _ _ _ => inStep_pure rfl)

theorem onSession_inStep {here there : Action Unit}
    (together : InStep (Session.Abreast depth) Eq here there) :
    InStep (Abreast depth) Eq (onSession here) (onSession there) :=
  done_inStep (Act.session_inStep together)

theorem define_inStep (spec : DefinitionSpec) :
    InStep (Abreast depth) Eq (define spec) (define spec) := by
  refine (Act.attempt_inStep (Act.data_inStep (DataDesk.define_inStep _))).bind ?_
  intro outcome other ended
  refine (note_inStep _ _).bind (fun _ _ _ => ?_)
  split
  · exact inStep_pure rfl
  · exact Act.ofExcept_inStep ended

theorem defineAll_inStep (definitions : List DefinitionSpec)
    (failure : Option (FaultKind × String)) :
    InStep (Abreast depth) Eq (defineAll definitions failure) (defineAll definitions failure) := by
  refine (inStep_forM definitions (fun spec _ => define_inStep spec)).bind (fun _ _ _ => ?_)
  split
  · exact inStep_throw _
  · exact inStep_pure rfl

/-- What a statement looks up, without changing anything. -/
theorem lookup_inStep {answer : Studio Notebook → Answer} :
    InStep (Abreast depth) Whatever (do pure (answer (← get))) (do pure (answer (← get))) :=
  inStep_get.bind (fun _ _ _ => inStep_pure trivial)

/-- Texts and comments among the statements. -/
def Statement.isRemark : Statement → Bool
  | .text _ | .comment _ => true
  | _ => false

/-- A statement that adds a strategy to those every session knows. -/
def Statement.registers : Statement → Bool
  | .register _ _ _ => true
  | _ => false

/-- Every other statement has the same outcome on both sides, and leaves them abreast. -/
theorem perform_inStep (statement : Statement) (spoken : statement.isRemark = false)
    (builtin : statement.registers = false) :
    InStep (Abreast depth) Whatever statement.perform statement.perform := by
  cases statement with
  | distribution key ranges =>
      refine (inStep_mapM_same ranges (fun spec _ => range_inStep spec)).bind ?_
      rintro ranges _ rfl
      refine (Act.ofExcept_inStep (Agree.refl _)).bind ?_
      rintro distribution _ rfl
      refine (edit_inStep (fun here there alike => ?_)).bind (fun _ _ _ => inStep_pure trivial)
      exact { alike with distributions := by rw [alike.distributions] }
  | nextValue key =>
      refine (distributionAt_inStep key).bind ?_
      rintro distribution _ rfl
      refine (Act.session_inStep (Session.generation_inStep (Generation.sample_inStep _))).bind ?_
      exact fun _ _ _ => inStep_pure trivial
  | draw lowest highest =>
      refine (Act.session_inStep (Session.generation_inStep (Generation.sample_inStep _))).bind ?_
      exact fun _ _ _ => inStep_pure trivial
  | seed => exact lookup_inStep
  | situation key name attributes providesData =>
      refine (inStep_mapM_same attributes (fun entry _ => ?_)).bind ?_
      · refine (toAttribute_inStep entry.2).bind ?_
        rintro found _ rfl
        exact inStep_pure rfl
      · rintro attributes _ rfl
        refine (edit_inStep (fun here there alike => ?_)).bind (fun _ _ _ => inStep_pure trivial)
        exact { alike with situations := by rw [alike.situations] }
  | defaultSituation names key =>
      refine (situationAt_inStep key).bind ?_
      rintro situation _ rfl
      exact (onSession_inStep (Session.bindDefaults_inStep names situation)).whatever
  | defaultFor name => exact lookup_inStep
  | instruction name arguments =>
      refine (inStep_mapM_same arguments (fun argument _ => argument_inStep argument)).bind ?_
      rintro arguments _ rfl
      exact (onSession_inStep (Session.addCall_inStep rfl site)).whatever
  | call spec =>
      refine (call_inStep spec).bind ?_
      rintro call _ ⟨rfl, silent⟩
      exact (onSession_inStep (Session.addCall_inStep silent site)).whatever
  | label name =>
      exact (onSession_inStep
        (Session.declare_inStep (fun scope => { name := .named name, scope }) _ site)).whatever
  | globalLabel name =>
      exact (onSession_inStep (Session.declare_inStep
        (fun scope => { name := .named name, isGlobal := true, scope }) _ site)).whatever
  | weakLabel name =>
      exact (onSession_inStep (Session.declare_inStep
        (fun scope => { name := .named name, isWeak := true, scope }) _ site)).whatever
  | numericLabel index =>
      exact (onSession_inStep (Session.declareNumericLabel_inStep index site)).whatever
  | text content => cases spoken
  | comment content => cases spoken
  | openBlock key kind options =>
      refine (Act.ofExcept_inStep (Agree.refl _)).bind ?_
      rintro options _ rfl
      refine (Act.session_inStep (Session.openBlock_inStep kind options _)).bind ?_
      rintro handle _ ⟨rfl, deep⟩
      refine (edit_inStep (fun here there alike => ?_)).bind (fun _ _ _ => inStep_pure trivial)
      refine { alike with handles := by rw [alike.handles], deep := fun entry member => ?_ }
      rcases KeyMap.mem_insert member with rfl | held
      · exact deep
      · exact alike.deep entry held
  | closeBlock key =>
      refine (handleAt_inStep key).bind ?_
      rintro handle _ ⟨rfl, deep⟩
      refine (Act.session_inStep (Session.closeBlock_inStep deep)).bind ?_
      exact fun _ _ _ => inStep_pure trivial
  | configureData config definitions failure =>
      exact (done_inStep (Act.configureData_inStep
        (defineAll_inStep definitions failure) config site)).whatever
  | definition id => exact lookup_inStep
  | optionGet name => exact lookup_inStep
  | optionSet name value =>
      refine (onSession_inStep (inStep_modify (fun here there abreast => ?_))).whatever
      exact { abreast with settings := by rw [abreast.settings] }
  | revision => exact lookup_inStep
  | isRevision id => exact lookup_inStep
  | settings => exact lookup_inStep
  | register option name strategy => cases builtin
  | lookup option name =>
      refine inStep_get.bind (fun here there abreast => ?_)
      simp only [abreast.session.builtin, abreast.session.also_builtin]
      exact (done_inStep (Act.ofExcept_inStep (Agree.refl _))).whatever
  | fail kind message => exact inStep_throw _

/-- A text or a comment that only one side makes. -/
theorem perform_unseen {statement : Statement} (remark : statement.isRemark = true) :
    InStep (Abreast depth) Whatever statement.perform (pure Answer.done) := by
  have told : ∀ {body : Action Unit}, InStep (Session.Abreast depth) Eq body (pure ()) →
      InStep (Abreast depth) Whatever (onSession body) (pure Answer.done) :=
    fun unseen => (done_inStep (Act.session_unseen unseen)).whatever
  cases statement with
  | text content => exact told (Session.addText_unseen content site)
  | comment content => exact told (Session.addComment_unseen content site)
  | _ => cases remark

end Statements

/-! ## Scripts without texts and comments -/

mutual

/-- The step without its texts and comments, unless it is one itself. -/
def DataStep.silenced? : DataStep → Option DataStep
  | .attempt step => step.silenced?.map DataStep.attempt
  | .text _ | .comment _ => none
  | .region options body => some (.region options (DataStep.silencedAll body))
  | step => some step

def DataStep.silencedAll : List DataStep → List DataStep
  | [] => []
  | step :: rest => step.silenced?.toList ++ silencedAll rest

end

mutual

/-- The step without its texts and comments, unless it is one itself. -/
def Step.silenced? : Step → Option Step
  | .attempt step => step.silenced?.map Step.attempt
  | .statement held => if held.isRemark then none else some (.statement held)
  | .block kind options location body =>
      some (.block kind options location (Step.silencedAll body))
  | .attributes added body => some (.attributes added (Step.silencedAll body))
  | .flagged flag body => some (.flagged flag (Step.silencedAll body))
  | .guarded added body => some (.guarded added (Step.silencedAll body))
  | .inSection memory location body => some (.inSection memory location (Step.silencedAll body))
  | .data region body => some (.data region (DataStep.silencedAll body))
  | .generate pre main post detailed =>
      let main := match main with
        | some body => some (Step.silencedAll body)
        | none => none
      some (.generate (Step.silencedAll pre) main (Step.silencedAll post) detailed)

def Step.silencedAll : List Step → List Step
  | [] => []
  | step :: rest => step.silenced?.toList ++ silencedAll rest

end

mutual

/-- Whether the step adds a strategy to those every session knows. -/
def Step.registers : Step → Bool
  | .attempt step => step.registers
  | .statement held => held.registers
  | .block _ _ _ body | .attributes _ body | .flagged _ body | .guarded _ body
  | .inSection _ _ body => Step.anyRegisters body
  | .data _ _ => false
  | .generate pre main post _ =>
      Step.anyRegisters pre ||
        (match main with
          | some body => Step.anyRegisters body
          | none => false) || Step.anyRegisters post

def Step.anyRegisters : List Step → Bool
  | [] => false
  | step :: rest => step.registers || Step.anyRegisters rest

end

/-! ## Running them side by side -/

theorem attempted_left {ι : Type} {depth : Nat} {run : ι → Run Unit} {attempt : ι → ι}
    (attempts : ∀ step, run (attempt step) = attempted (run step)) {body : Run Unit}
    {left : Option ι} (together : InStep (Abreast depth) Eq body (runLeft run left)) :
    InStep (Abreast depth) Eq (attempted body) (runLeft run (left.map attempt)) := by
  cases left with
  | none => exact attempted_unseen together
  | some step =>
      rw [Option.map_some, runLeft, attempts]
      exact attempted_inStep together

mutual

theorem runDataStep_inStep (depth : Nat) : (step : DataStep) →
    InStep (Abreast (depth + 1)) Eq (runDataStep step) (runLeft runDataStep step.silenced?)
  | .attempt step => by
      rw [runDataStep, DataStep.silenced?]
      exact attempted_left (fun _ => by rw [runDataStep]) (runDataStep_inStep depth step)
  | .origin value => by
      simp only [DataStep.silenced?, runLeft, runDataStep]
      refine recordedData_inStep _ ((Act.ofExcept_inStep (Agree.refl _)).bind ?_)
      rintro origin _ rfl
      exact Act.data_inStep (DataDesk.push_inStep _)
  | .absoluteOrigin address => by
      simp only [DataStep.silenced?, runLeft, runDataStep]
      exact recordedData_inStep _ (Act.data_inStep (DataDesk.push_inStep _))
  | .align items => by
      simp only [DataStep.silenced?, runLeft, runDataStep]
      exact recordedData_inStep _ (Act.data_inStep (DataDesk.align_inStep items))
  | .label name => by
      simp only [DataStep.silenced?, runLeft, runDataStep]
      exact recordedData_inStep _ (Act.data_inStep (DataDesk.push_inStep _))
  | .globalLabel name => by
      simp only [DataStep.silenced?, runLeft, runDataStep]
      exact recordedData_inStep _ (Act.data_inStep (DataDesk.push_inStep _))
  | .text content => by
      simp only [DataStep.silenced?, runLeft, runDataStep]
      exact recordedData_unseen _ (Act.data_unseen (DataDesk.text_unseen content))
  | .comment content => by
      simp only [DataStep.silenced?, runLeft, runDataStep]
      exact recordedData_unseen _ (Act.data_unseen (DataDesk.comment_unseen content))
  | .emit id values => by
      simp only [DataStep.silenced?, runLeft, runDataStep]
      refine recordedData_inStep _
        ((inStep_mapM_same values (fun value _ => dataArgument_inStep value)).bind ?_)
      rintro values _ rfl
      exact Act.data_inStep (DataDesk.emit_inStep id values)
  | .region region body => by
      simp only [DataStep.silenced?, runLeft, runDataStep]
      exact recordedData_inStep _
        (Act.nestedRegion_inStep (runDataSteps_inStep (depth + 1) body) region)
  | .pageTableEntry preparator adaptor entry => by
      simp only [DataStep.silenced?, runLeft, runDataStep]
      refine (note_inStep _ _).bind (fun _ _ _ => ?_)
      exact recordedData_inStep _
        (Act.data_inStep (DataDesk.pageTable_inStep preparator adaptor entry))
  | .fail kind message => by
      simp only [DataStep.silenced?, runLeft, runDataStep]
      exact recordedData_inStep _ (inStep_throw _)

theorem runDataSteps_inStep (depth : Nat) : (steps : List DataStep) →
    InStep (Abreast (depth + 1)) Eq (runDataSteps steps) (runDataSteps (DataStep.silencedAll steps))
  | [] => by
      rw [DataStep.silencedAll, runDataSteps]
      exact inStep_pure rfl
  | step :: rest => by
      rw [DataStep.silencedAll]
      exact next_left (fun _ _ => by rw [runDataSteps]) (runDataStep_inStep depth step)
        (runDataSteps_inStep depth rest)

end

/-- A phase cannot be entered again while one is running. -/
theorem generate_inStep {depth : Nat} (here there : Template Notebook) :
    InStep (Abreast depth) (fun _ _ => False) here.generate there.generate := by
  have entered : InStep (Session.Abreast depth) (fun _ _ => False) (Session.enterPhase .pre)
      (Session.enterPhase .pre) := by
    intro first second abreast
    have running := abreast.running
    have same := abreast.lifecycle
    unfold Session.enterPhase
    rw [← same]
    cases lifecycle : first.lifecycle with
    | created => rw [lifecycle] at running; cases running
    | done => rw [lifecycle] at running; cases running
    | preRunning => exact ⟨.error _, abreast⟩
    | mainRunning => exact ⟨.error _, abreast⟩
    | postRunning => exact ⟨.error _, abreast⟩
  have impossible : ∀ {α β γ δ : Type} {W : γ → δ → Prop} {body : Run α} {other : Run β}
      {next : α → Run γ} {further : β → Run δ},
      InStep (Abreast depth) (fun _ _ => False) body other →
        InStep (Abreast depth) W (body >>= next) (other >>= further) :=
    fun together => together.bind (fun _ _ absurd => absurd.elim)
  have remarked : InStep (Abreast depth) Eq
      (Act.session (do Action.remark (.generating (← get).settings.seed)))
      (Act.session (do Action.remark (.generating (← get).settings.seed))) :=
    Act.session_inStep (inStep_get.bind (fun _ _ _ => Session.remark_inStep _ _))
  refine InStep.bind (V := fun _ _ => False) ?_ (fun _ _ absurd => absurd.elim)
  refine remarked.bind (fun _ _ _ => ?_)
  refine impossible ?_
  refine (Act.session_inStep (Session.remark_inStep _ _)).bind (fun _ _ _ => ?_)
  refine impossible (Act.session_inStep ?_)
  exact InStep.bind entered (fun _ _ absurd => absurd.elim)

theorem inner_generate_inStep (pre : List Step) (main : Option (List Step)) (post : List Step)
    (detailed : Bool) :
    InStep (Abreast 0) Eq (runStep (.generate pre main post detailed))
      (runLeft runStep (Step.generate pre main post detailed).silenced?) := by
  have both : ∀ here there : Template Notebook, InStep (Abreast 0) Eq
      (recorded "generate" do pure (.generated (← here.generate) detailed))
      (recorded "generate" do pure (.generated (← there.generate) detailed)) :=
    fun here there => recorded_inStep (V := Whatever) _
      ((generate_inStep here there).bind (fun _ _ absurd => absurd.elim))
  cases main with
  | none =>
      simp only [Step.silenced?, runLeft, runStep]
      exact both _ _
  | some body =>
      simp only [Step.silenced?, runLeft, runStep]
      exact both _ _

mutual

theorem runStep_inStep : (step : Step) → step.registers = false →
    InStep (Abreast 0) Eq (runStep step) (runLeft runStep step.silenced?)
  | .attempt step, plain => by
      rw [runStep, Step.silenced?]
      exact attempted_left (fun _ => by rw [runStep]) (runStep_inStep step plain)
  | .statement statement, plain => by
      rw [runStep, Step.silenced?]
      split
      · rename_i remark
        exact recorded_unseen _ (perform_unseen remark)
      · rename_i spoken
        rw [runLeft, runStep]
        exact recorded_inStep _ (perform_inStep statement (by simpa using spoken) plain)
  | .block kind options location body, plain => by
      rw [Step.silenced?, runLeft, runStep, runStep]
      refine recorded_inStep (V := Eq) _ ((Act.ofExcept_inStep (Agree.refl _)).bind ?_)
      rintro options _ rfl
      exact done_inStep (Act.scopedBlock_inStep (runAll_inStep body plain) kind options _)
  | .attributes attributes body, plain => by
      rw [Step.silenced?, runLeft, runStep, runStep]
      exact recorded_inStep _
        (done_inStep (Act.withAttributes_inStep (runAll_inStep body plain) attributes))
  | .flagged flag body, plain => by
      rw [Step.silenced?, runLeft, runStep, runStep]
      exact recorded_inStep _
        (done_inStep (Act.withAttributes_inStep (runAll_inStep body plain) flag.attributes))
  | .guarded attributes body, plain => by
      rw [Step.silenced?, runLeft, runStep, runStep]
      refine recorded_inStep (V := Whatever) _ (inStep_get.bind (fun here there abreast => ?_))
      refine (Act.withAttributes_inStep (runAll_inStep body plain) attributes).bind ?_
      exact fun _ _ _ => inStep_pure trivial
  | .inSection memory location body, plain => by
      rw [Step.silenced?, runLeft, runStep, runStep]
      exact recorded_inStep _
        (done_inStep (Act.inSection_inStep (runAll_inStep body plain) memory _))
  | .data region body, _ => by
      rw [Step.silenced?, runLeft, runStep, runStep]
      exact recorded_inStep _
        (done_inStep (Act.dataRegion_inStep (runDataSteps_inStep 0 body) region site))
  | .generate pre main post detailed, _ => inner_generate_inStep pre main post detailed

/-- **Beside itself without texts and comments.**  A script in which no strategy is registered
ends as it does without its texts and comments, and the sessions differ in what those left
only. -/
theorem runAll_inStep : (steps : List Step) → Step.anyRegisters steps = false →
    InStep (Abreast 0) Eq (runAll steps) (runAll (Step.silencedAll steps))
  | [], _ => by
      rw [Step.silencedAll, runAll]
      exact inStep_pure rfl
  | step :: rest, plain => by
      rw [Step.anyRegisters, Bool.or_eq_false_iff] at plain
      rw [Step.silencedAll]
      exact next_left (fun _ _ => by rw [runAll]) (runStep_inStep step plain.1)
        (runAll_inStep rest plain.2)

end

end Script
end TestProgram
