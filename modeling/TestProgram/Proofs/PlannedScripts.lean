/-
# TestProgram.Proofs.PlannedScripts -- scripts and template files are plans

Whatever a script does to its session a plan could do: to each of its steps there is a statement of
plans, the templates that it runs among them, and what it does between its statements leaves the
session alone.  The same holds of what a template file prepares, and of the items of its phases.
So all that is said of plans is said of them.
-/
import TestProgram.Proofs.FileOperations
import TestProgram.Proofs.Lifecycles
import TestProgram.Script.Run

namespace TestProgram

set_option autoImplicit false

namespace Act

variable {ε α β : Type}

/-! ## Bodies of regions -/

/-- Some plan of a region does this. -/
def RegionPlanned (act : Act ε α) : Prop :=
  ∃ plan : RegionPlan ε α, plan.run = act

theorem Aloof.regionPlanned {act : Act ε α} (aloof : Aloof act) : RegionPlanned act :=
  ⟨.aloof act aloof, rfl⟩

theorem regionPlanned_statement (statement : DataStatement) :
    RegionPlanned (Act.data statement.perform : Act ε Unit) :=
  ⟨.desk (.statement statement), rfl⟩

theorem RegionPlanned.bind {first : Act ε α} {next : α → Act ε β} (here : RegionPlanned first)
    (there : ∀ value, RegionPlanned (next value)) : RegionPlanned (first >>= next) := by
  obtain ⟨plan, rfl⟩ := here
  obtain ⟨rest, runs⟩ := Classical.skolem.mp there
  exact ⟨.bind plan rest, congrArg (plan.run >>= ·) (funext runs)⟩

theorem RegionPlanned.attempt {body : Act ε α} (planned : RegionPlanned body) :
    RegionPlanned (attempt body) := by
  obtain ⟨plan, rfl⟩ := planned
  exact ⟨.attempt plan, rfl⟩

theorem RegionPlanned.locating {body : Act ε α} (planned : RegionPlanned body)
    (location : Location) : RegionPlanned (locating location body) := by
  obtain ⟨plan, rfl⟩ := planned
  exact ⟨.locating location plan, rfl⟩

theorem RegionPlanned.nestedRegion {body : Act ε Unit} (planned : RegionPlanned body)
    (region : DataRegion) : RegionPlanned (nestedRegion region body) := by
  obtain ⟨plan, rfl⟩ := planned
  exact ⟨.region region plan, RegionPlan.run_region region plan⟩

theorem RegionPlanned.forM {step : α → Act ε Unit} (each : ∀ item, RegionPlanned (step item)) :
    ∀ items : List α, RegionPlanned (items.forM step)
  | [] => (aloof_pure ()).regionPlanned
  | item :: rest => (each item).bind (fun _ => RegionPlanned.forM each rest)

/-! ## Bodies -/

/-- Some plan does this. -/
def Planned (act : Act ε α) : Prop :=
  ∃ plan : Plan ε α, plan.run = act

theorem Aloof.planned {act : Act ε α} (aloof : Aloof act) : Planned act :=
  ⟨.aloof act aloof, rfl⟩

theorem planned_aside {action : Action α}
    (apart : ∀ session : Session, session.Apart (action session).2) :
    Planned (Act.session action : Act ε α) :=
  ⟨.aside action apart, rfl⟩

theorem planned_declare (declaration : Declaration) (location : Location) :
    Planned (Act.session (declaration.perform location) : Act ε Unit) :=
  ⟨.declare declaration location, rfl⟩

theorem planned_write (output : Output) (location : Location) :
    Planned (Act.session (Operation.write output location).perform : Act ε Unit) :=
  ⟨.write output location, rfl⟩

theorem planned_addCall (call : Call) (location : Location) :
    Planned (Act.session (Session.addCall call location) : Act ε Unit) :=
  ⟨.addCall call location, rfl⟩

theorem Planned.bind {first : Act ε α} {next : α → Act ε β} (here : Planned first)
    (there : ∀ value, Planned (next value)) : Planned (first >>= next) := by
  obtain ⟨plan, rfl⟩ := here
  obtain ⟨rest, runs⟩ := Classical.skolem.mp there
  exact ⟨.bind plan rest, congrArg (plan.run >>= ·) (funext runs)⟩

theorem Planned.attempt {body : Act ε α} (planned : Planned body) : Planned (attempt body) := by
  obtain ⟨plan, rfl⟩ := planned
  exact ⟨.attempt plan, rfl⟩

theorem Planned.locating {body : Act ε α} (planned : Planned body) (location : Location) :
    Planned (locating location body) := by
  obtain ⟨plan, rfl⟩ := planned
  exact ⟨.locating location plan, rfl⟩

theorem Planned.forM {step : α → Act ε Unit} (each : ∀ item, Planned (step item)) :
    ∀ items : List α, Planned (items.forM step)
  | [] => (aloof_pure ()).planned
  | item :: rest => (each item).bind (fun _ => Planned.forM each rest)

section Enclosing

variable {body : Act ε Unit}

theorem Planned.scopedBlock (planned : Planned body) (kind : BlockKind) (options : BlockOptions)
    (location : Location) : Planned (scopedBlock kind options location body) := by
  obtain ⟨plan, rfl⟩ := planned
  exact ⟨.scopedBlock kind options location plan, Plan.run_scopedBlock plan kind options location⟩

theorem Planned.withAttributes (planned : Planned body) (attributes : Attributes) :
    Planned (withAttributes attributes body) := by
  obtain ⟨plan, rfl⟩ := planned
  exact ⟨.withAttributes attributes plan, Plan.run_withAttributes plan attributes⟩

theorem Planned.inSection (planned : Planned body) (memory : MemorySection) (location : Location) :
    Planned (inSection memory location body) := by
  obtain ⟨plan, rfl⟩ := planned
  exact ⟨.inSection memory location plan, Plan.run_inSection plan memory location⟩

theorem RegionPlanned.configureData (planned : RegionPlanned body) (config : DataConfig)
    (location : Location) : Planned (configureData config location body) := by
  obtain ⟨plan, rfl⟩ := planned
  exact ⟨.configureData config location plan, Plan.run_configureData plan config location⟩

theorem RegionPlanned.dataRegion (planned : RegionPlanned body) (region : DataRegion)
    (location : Location) : Planned (dataRegion region location body) := by
  obtain ⟨plan, rfl⟩ := planned
  exact ⟨.dataRegion region location plan, Plan.run_dataRegion plan region location⟩

end Enclosing

theorem planned_generate {pre main post : Act ε Unit} (first : Planned pre)
    (second : Planned main) (third : Planned post) :
    Planned (Template.generate { pre, main, post }) := by
  obtain ⟨pre, rfl⟩ := first
  obtain ⟨main, rfl⟩ := second
  obtain ⟨post, rfl⟩ := third
  exact ⟨.generate pre main post, Plan.run_generate pre main post⟩

theorem planned_generation (body : Generation α) :
    Planned (Act.session (Action.generation body) : Act ε α) :=
  planned_aside (fun _ => ⟨rfl, rfl, rfl, rfl, rfl⟩)

theorem planned_bindDefaults (names : List String) (situation : Situation) :
    Planned (Act.session (Session.bindDefaults names situation) : Act ε Unit) := by
  have remarks : (names.forM fun name =>
      Action.remark (.defaultSituation name situation.name)).Within Session.Apart := by
    induction names with
    | nil => exact .refl
    | cons name rest ih =>
        exact Action.Within.bind .trans (fun _ => ⟨rfl, rfl, rfl, rfl, rfl⟩) (fun _ => ih)
  exact planned_aside
    (Action.Within.bind .trans remarks (fun _ _ => ⟨rfl, rfl, rfl, rfl, rfl⟩))

end Act

/-! ## Page tables -/

/-- A comment, and values that are written through a definition. -/
def DeskPlan.commented (content id : String) (values : List Argument) : DeskPlan Unit :=
  .bind (.statement (.comment content)) fun _ => .statement (.emit id values)

/-- A table that writes through definitions. -/
theorem Act.regionPlanned_through {ε : Type} (preparator adaptor : Option String)
    (entry : PageTableEntry) :
    RegionPlanned (Act.data ((PageTable.through preparator adaptor).emit entry) : Act ε Unit) := by
  refine ⟨.desk (.pageTableEntry preparator.isSome adaptor.isSome
    (fun attributes => .commented attributes.render (preparator.getD "")
      [.value (.integer attributes.length)])
    (fun object => .commented object.attributes.render (adaptor.getD "")
      ([object.virtual, object.physical, object.size].map
        (fun word => .value (PageTable.signedWord word)))) entry), ?_⟩
  cases preparator <;> cases adaptor <;> rfl

/-! ## Scripts -/

namespace Script

open Act

theorem note_aloof (event : Event) : Aloof (note event) :=
  fun _ => rfl

theorem edit_aloof (change : Notebook → Notebook) : Aloof (edit change) :=
  fun _ => rfl

theorem notebook_aloof : Aloof notebook :=
  fun _ => rfl

theorem distributionAt_aloof (key : String) : Aloof (distributionAt key) := by
  refine notebook_aloof.bind (fun _ => ?_)
  split
  · exact aloof_pure _
  · exact aloof_throw _

theorem situationAt_aloof (key : String) : Aloof (situationAt key) := by
  refine notebook_aloof.bind (fun _ => ?_)
  split
  · exact aloof_pure _
  · exact aloof_throw _

theorem handleAt_aloof (key : String) : Aloof (handleAt key) := by
  refine notebook_aloof.bind (fun _ => ?_)
  split
  · exact aloof_pure _
  · exact aloof_throw _

theorem range_aloof (spec : RangeSpec) : Aloof spec.range := by
  refine Aloof.bind ?_ (fun value => aloof_ofExcept _)
  cases spec.source with
  | scalar value => exact aloof_pure _
  | collection values => exact aloof_pure _
  | distribution key => exact (distributionAt_aloof key).bind (fun _ => aloof_pure _)

theorem toAttribute_aloof (source : SituationSource) : Aloof source.toAttribute := by
  cases source with
  | scalar value => exact aloof_pure _
  | distribution key => exact (distributionAt_aloof key).bind (fun _ => aloof_pure _)

theorem argument_aloof (spec : ArgumentSpec) : Aloof spec.argument := by
  cases spec with
  | value scalar => exact aloof_pure _
  | random lowest highest => exact aloof_ofExcept _
  | distribution key => exact (distributionAt_aloof key).bind (fun _ => aloof_pure _)
  | label name => exact aloof_get.bind (fun _ => aloof_pure _)
  | numeric index forward =>
      exact aloof_get.bind (fun _ => (aloof_ofExcept _).bind (fun _ => aloof_pure _))
  | address kind level bits => exact (aloof_ofExcept _).bind (fun _ => aloof_pure _)

theorem dataArgument_aloof (spec : ArgumentSpec) : Aloof spec.dataArgument := by
  cases spec with
  | random lowest highest => exact aloof_pure _
  | label name => exact aloof_pure _
  | numeric index forward => exact (aloof_ofExcept _).bind (fun _ => aloof_pure _)
  | value scalar => exact argument_aloof (.value scalar)
  | distribution key => exact argument_aloof (.distribution key)
  | address kind level bits => exact argument_aloof (.address kind level bits)

theorem call_aloof (spec : CallSpec) : Aloof spec.call := by
  refine (Aloof.mapM argument_aloof _).bind (fun _ => ?_)
  refine (Aloof.optionMapM situationAt_aloof _).bind (fun _ => ?_)
  exact (aloof_ofExcept _).bind (fun _ => aloof_pure _)

theorem recorded_planned {body : Run Answer} (verb : String) (planned : Planned body) :
    Planned (recorded verb body) := by
  refine planned.attempt.bind (fun outcome => ?_)
  exact (aloof_get.bind (fun _ => (note_aloof _).bind (fun _ => aloof_ofExcept _))).planned

theorem attempted_planned {body : Run Unit} (planned : Planned body) :
    Planned (attempted body) :=
  planned.attempt.bind (fun _ => (aloof_pure ()).planned)

theorem done_planned {body : Run Unit} (planned : Planned body) : Planned (done body) :=
  planned.bind (fun _ => (aloof_pure _).planned)

theorem recordedData_planned {body : Run Unit} (verb : String) (planned : RegionPlanned body) :
    RegionPlanned (recordedData verb body) := by
  refine planned.attempt.bind (fun outcome => ?_)
  exact ((note_aloof _).bind (fun _ => aloof_ofExcept _)).regionPlanned

theorem defineAll_planned (definitions : List DefinitionSpec)
    (failure : Option (FaultKind × String)) : RegionPlanned (defineAll definitions failure) := by
  refine RegionPlanned.bind (RegionPlanned.forM (fun spec => ?_) definitions) (fun _ => ?_)
  · refine (regionPlanned_statement (.define spec.definition)).attempt.bind (fun outcome => ?_)
    refine ((note_aloof _).bind (fun _ => ?_)).regionPlanned
    cases spec.attempt with
    | true => exact aloof_pure _
    | false => exact aloof_ofExcept _
  · cases failure with
    | none => exact (aloof_pure _).regionPlanned
    | some failure => exact (aloof_throw _).regionPlanned

theorem statement_planned (statement : Statement) : Planned statement.perform := by
  have changing : ∀ {change : Session → Session},
      (∀ session : Session, session.Apart (change session)) →
      Planned (onSession (modify change)) :=
    fun apart => done_planned (planned_aside apart)
  cases statement with
  | distribution key ranges =>
      exact ((Aloof.mapM range_aloof ranges).bind (fun _ => (aloof_ofExcept _).bind (fun _ =>
        (edit_aloof _).bind (fun _ => aloof_pure _)))).planned
  | nextValue key =>
      exact (distributionAt_aloof key).planned.bind (fun _ =>
        (planned_generation _).bind (fun _ => (aloof_pure _).planned))
  | draw lowest highest => exact (planned_generation _).bind (fun _ => (aloof_pure _).planned)
  | situation key name attributes providesData =>
      refine ((Aloof.mapM (fun entry => ?_) attributes).bind (fun _ =>
        (edit_aloof _).bind (fun _ => aloof_pure _))).planned
      exact (toAttribute_aloof _).bind (fun _ => aloof_pure _)
  | defaultSituation names key =>
      exact (situationAt_aloof key).planned.bind (fun situation =>
        done_planned (planned_bindDefaults names situation))
  | instruction name arguments =>
      exact (Aloof.mapM argument_aloof arguments).planned.bind (fun _ =>
        done_planned (planned_addCall _ site))
  | call spec =>
      exact (call_aloof spec).planned.bind (fun call => done_planned (planned_addCall call site))
  | label name => exact done_planned (planned_declare (.label name) site)
  | globalLabel name => exact done_planned (planned_declare (.globalLabel name) site)
  | weakLabel name => exact done_planned (planned_declare (.weakLabel name) site)
  | numericLabel index => exact done_planned (planned_declare (.numericLabel index) site)
  | text content => exact done_planned (planned_write (.text content) site)
  | comment content => exact done_planned (planned_write (.comment content) site)
  | openBlock key kind options =>
      refine (aloof_ofExcept _).planned.bind (fun options => ?_)
      refine Planned.bind ⟨.openBlock kind options (some site), rfl⟩ (fun handle => ?_)
      exact ((edit_aloof _).bind (fun _ => aloof_pure _)).planned
  | closeBlock key =>
      refine (handleAt_aloof key).planned.bind (fun handle => ?_)
      exact Planned.bind ⟨.closeBlock handle, rfl⟩ (fun _ => (aloof_pure _).planned)
  | configureData config definitions failure =>
      exact done_planned ((defineAll_planned definitions failure).configureData config site)
  | optionSet name value => exact changing (fun _ => ⟨rfl, rfl, rfl, rfl, rfl⟩)
  | register option name strategy => exact changing (fun _ => ⟨rfl, rfl, rfl, rfl, rfl⟩)
  | lookup option name =>
      exact aloof_get.planned.bind (fun _ => done_planned (aloof_ofExcept _).planned)
  | fail kind message => exact (aloof_throw _).planned
  | _ => exact (aloof_get.bind (fun _ => aloof_pure _)).planned

mutual

theorem runDataStep_planned : ∀ step : DataStep, RegionPlanned (runDataStep step)
  | .attempt step =>
      (runDataStep_planned step).attempt.bind (fun _ => (aloof_pure ()).regionPlanned)
  | .origin _ => recordedData_planned _ ((aloof_ofExcept _).regionPlanned.bind (fun origin =>
      regionPlanned_statement (.origin origin)))
  | .absoluteOrigin _ => recordedData_planned _ (regionPlanned_statement (.origin _))
  | .align items => recordedData_planned _ (regionPlanned_statement (.align items))
  | .label name => recordedData_planned _ (regionPlanned_statement (.label name false))
  | .globalLabel name => recordedData_planned _ (regionPlanned_statement (.label name true))
  | .text content => recordedData_planned _ (regionPlanned_statement (.text content))
  | .comment content => recordedData_planned _ (regionPlanned_statement (.comment content))
  | .emit id values => recordedData_planned _
      ((Aloof.mapM dataArgument_aloof values).regionPlanned.bind (fun values =>
        regionPlanned_statement (.emit id values)))
  | .region region body => recordedData_planned _ ((runDataSteps_planned body).nestedRegion region)
  | .pageTableEntry preparator adaptor entry =>
      (note_aloof _).regionPlanned.bind (fun _ =>
        recordedData_planned _ (regionPlanned_through preparator adaptor entry))
  | .fail _ _ => recordedData_planned _ (aloof_throw _).regionPlanned

theorem runDataSteps_planned : ∀ steps : List DataStep, RegionPlanned (runDataSteps steps)
  | [] => (aloof_pure ()).regionPlanned
  | step :: rest => (runDataStep_planned step).bind (fun _ => runDataSteps_planned rest)

end

mutual

theorem runStep_planned : ∀ step : Step, Planned (runStep step)
  | .attempt step => attempted_planned (runStep_planned step)
  | .statement statement => recorded_planned _ (statement_planned statement)
  | .block kind _ _ body => recorded_planned _ ((aloof_ofExcept _).planned.bind (fun options =>
      done_planned ((runAll_planned body).scopedBlock kind options _)))
  | .attributes attributes body =>
      recorded_planned _ (done_planned ((runAll_planned body).withAttributes attributes))
  | .flagged flag body =>
      recorded_planned _ (done_planned ((runAll_planned body).withAttributes flag.attributes))
  | .guarded attributes body => recorded_planned _ (aloof_get.planned.bind (fun _ =>
      ((runAll_planned body).withAttributes attributes).bind (fun _ => (aloof_pure _).planned)))
  | .inSection memory _ body =>
      recorded_planned _ (done_planned ((runAll_planned body).inSection memory _))
  | .data region body =>
      recorded_planned _ (done_planned ((runDataSteps_planned body).dataRegion region site))
  | .generate pre (some main) post _ => recorded_planned _
      ((planned_generate (runAll_planned pre) (runAll_planned main) (runAll_planned post)).bind
        (fun _ => (aloof_pure _).planned))
  | .generate pre none post _ => recorded_planned _
      ((planned_generate (runAll_planned pre) (planned_aside (fun _ => ⟨rfl, rfl, rfl, rfl, rfl⟩))
        (runAll_planned post)).bind (fun _ => (aloof_pure _).planned))

/-- **Scripts are plans.**  Whatever a script does, some plan does. -/
theorem runAll_planned : ∀ script : Script, Planned (runAll script)
  | [] => (aloof_pure ()).planned
  | step :: rest => (runStep_planned step).bind (fun _ => runAll_planned rest)

end

/-- A script leaves its session new, in a phase that has failed, or with all of them over. -/
theorem run_rests (script : Script) (settings : Settings) :
    ∃ past, PhaseEvent.InSequence past ∧ Session.Rests past (script.run settings).2.session := by
  obtain ⟨plan, runs⟩ := runAll_planned script
  have rests := Session.new_rests settings {} plan
  rw [runs] at rests
  exact ⟨_, rests.inSequence, rests⟩

end Script

/-! ## Template files -/

namespace TemplateFile

open Act

mutual

theorem runDataItem_planned (file : Nat) : ∀ item : DataItem,
    RegionPlanned (runDataItem file item)
  | .origin _ => (aloof_ofExcept _).regionPlanned.bind (fun origin =>
      regionPlanned_statement (.origin origin))
  | .align items => regionPlanned_statement (.align items)
  | .label name => regionPlanned_statement (.label name false)
  | .globalLabel name => regionPlanned_statement (.label name true)
  | .text content => regionPlanned_statement (.text content)
  | .comment content => regionPlanned_statement (.comment content)
  | .emit id values => (Aloof.mapM dataArgument_aloof values).regionPlanned.bind (fun values =>
      regionPlanned_statement (.emit id values))
  | .region region items => (runDataItems_planned file items).nestedRegion region

theorem runDataItems_planned (file : Nat) : ∀ items : List (Toml.Span × DataItem),
    RegionPlanned (runDataItems file items)
  | [] => (aloof_pure ()).regionPlanned
  | (span, item) :: rest =>
      ((runDataItem_planned file item).locating (spanIn file span)).bind
        (fun _ => runDataItems_planned file rest)

end

mutual

theorem runItem_planned (file : Nat) (location : Location) : ∀ item : Item,
    Planned (runItem file location item)
  | .block kind _ items =>
      (aloof_ofExcept _).planned.bind (fun _ => (aloof_ofExcept _).planned.bind (fun options =>
        (runItems_planned file items).scopedBlock kind options location))
  | .call call =>
      (call_aloof call location).planned.bind (fun call => planned_addCall call site)
  | .label name => planned_declare (.label name) site
  | .globalLabel name => planned_declare (.globalLabel name) site
  | .weakLabel name => planned_declare (.weakLabel name) site
  | .numericLabel _ => (aloof_ofExcept _).planned.bind (fun index =>
      planned_declare (.numericLabel index) site)
  | .text content => planned_write (.text content) site
  | .comment content => planned_write (.comment content) site
  | .flagged flag items => (runItems_planned file items).withAttributes flag.attributes
  | .attributes _ items => (aloof_ofExcept _).planned.bind (fun attributes =>
      (runItems_planned file items).withAttributes attributes)
  | .data region items => (runDataItems_planned file items).dataRegion region site
  | .inSection memory items => (runItems_planned file items).inSection memory location

theorem runItems_planned (file : Nat) : ∀ items : List (Toml.Span × Item),
    Planned (runItems file items)
  | [] => (aloof_pure ()).planned
  | (span, item) :: rest =>
      ((runItem_planned file (spanIn file span) item).locating (spanIn file span)).bind
        (fun _ => runItems_planned file rest)

end

theorem prepare_planned (file : TemplateFile) : Planned file.prepare := by
  have defaults : Planned (file.defaults.forM prepareDefault) :=
    Planned.forM (fun spec => (aloof_ofExcept _).planned.bind (fun names =>
      (situationNamed_aloof _).planned.bind (planned_bindDefaults names))) _
  have data : ∀ data, Planned (prepareData data) := fun data =>
    (RegionPlanned.forM (fun definition => regionPlanned_statement (.define definition))
      data.definitions).configureData data.config site
  refine (building_aloof _).planned.bind (fun _ => ?_)
  refine (Planned.forM (fun _ => (prepareSituation_aloof _ _).planned) _).bind (fun _ => ?_)
  split
  · exact (data _).bind (fun _ => defaults)
  · exact (aloof_pure ()).planned.bind (fun _ => defaults)

/-- **Template files are plans.**  Whatever a template file does on a session, some plan does. -/
theorem template_planned (file : TemplateFile) (number : Nat) :
    Planned (file.template number).generate :=
  planned_generate ((prepare_planned file).bind (fun _ => runItems_planned number file.pre))
    (runItems_planned number file.main) (runItems_planned number file.post)

end TemplateFile

end TestProgram
