/-
# TestProgram.Proofs.FileOperations -- the phases of a template file are made of operations

The statements that enclose others (attribute scopes, memory sections, data regions) do nothing to
the open blocks themselves, so around a body of operations they leave one.  The items of a template
file are put together from these and from the operations, and what a file prepares before its
first phase stays away from the blocks as well.  So what is proved of bodies that perform
operations holds of every phase of every template file (`template_contextual`).
-/
import TestProgram.Proofs.Operations
import TestProgram.TemplateFile.Run

namespace TestProgram

set_option autoImplicit false

/-! ## Actions that leave the blocks alone -/

namespace Action

variable {α β : Type}

/-- Whatever comes of it, the open blocks are as before. -/
def Aside (action : Action α) : Prop :=
  ∀ session, (action session).2.blocks = session.blocks

theorem Aside.bind {first : Action α} {next : α → Action β} (here : Aside first)
    (there : ∀ value, Aside (next value)) : Aside (first >>= next) := by
  intro session
  rw [Computation.bind_run]
  rcases run : first session with ⟨_ | value, after⟩
  · have kept := here session
    rw [run] at kept
    exact kept
  · have kept := here session
    rw [run] at kept
    exact (there value after).trans kept

theorem aside_remark (remark : Remark) : Aside (Action.remark remark) :=
  fun _ => rfl

theorem Aside.locating {action : Action α} (aside : Aside action) (location : Location) :
    Aside (Action.locating location action) :=
  aside

theorem aside_enterSection (memory : MemorySection) (location : Location) :
    Aside (Session.enterSection memory location) := by
  apply Aside.locating
  split
  · exact fun _ => rfl
  · refine Aside.bind (fun _ => rfl) (fun session => ?_)
    cases session.currentSection with
    | some outer => exact fun _ => rfl
    | none =>
        exact (aside_remark _).bind (fun _ => Aside.bind (fun _ => rfl) (fun _ _ => rfl))

theorem aside_bindDefaults (names : List String) (situation : Situation) :
    Aside (Session.bindDefaults names situation) := by
  refine Aside.bind ?_ (fun _ _ => rfl)
  induction names with
  | nil => exact fun _ => rfl
  | cons name rest ih => exact (aside_remark _).bind (fun _ => ih)

end Action

/-! ## Enclosing statements -/

namespace Act

variable {ε α β : Type}

theorem Contextual.forM {step : α → Act ε Unit} (each : ∀ item, Contextual (step item)) :
    ∀ items : List α, Contextual (items.forM step)
  | [] => (aloof_pure ()).contextual
  | item :: rest => (each item).bind (fun _ => Contextual.forM each rest)

theorem contextual_data (body : DataAction α) : Contextual (Act.data body : Act ε α) :=
  contextual_aside (fun _ => rfl)

section Enclosed

variable {body : Act ε Unit} (contextual : Contextual body)

include contextual

theorem Contextual.withAttributes (attributes : Attributes) :
    Contextual (withAttributes attributes body) := by
  refine (contextual_aside (fun _ => rfl)).bind (fun depth => ?_)
  refine contextual.attempt.bind (fun outcome => ?_)
  exact (contextual_aside (fun _ => rfl)).bind (fun _ => (aloof_ofExcept outcome).contextual)

theorem Contextual.inSection (memory : MemorySection) (location : Location) :
    Contextual (inSection memory location body) := by
  refine (contextual_aside (Action.aside_enterSection memory location)).bind (fun depth => ?_)
  refine contextual.attempt.bind (fun outcome => ?_)
  exact (contextual_aside (fun _ => rfl)).bind (fun _ => (aloof_ofExcept _).contextual)

theorem Contextual.configureData (config : DataConfig) (location : Location) :
    Contextual (configureData config location body) := by
  refine ((contextual_data _).locating location).bind (fun _ => ?_)
  refine contextual.attempt.bind (fun outcome => ?_)
  exact (contextual_data _).bind (fun _ => (aloof_ofExcept _).contextual)

theorem Contextual.dataRegion (region : DataRegion) (location : Location) :
    Contextual (dataRegion region location body) := by
  refine (contextual_aside (fun _ => rfl)).bind (fun memory => ?_)
  refine ((contextual_data _).locating location).bind (fun _ => ?_)
  refine contextual.attempt.bind (fun outcome => ?_)
  exact (contextual_data _).bind (fun _ => (aloof_ofExcept _).contextual)

theorem Contextual.nestedRegion (region : DataRegion) :
    Contextual (nestedRegion region body) := by
  refine (contextual_data _).bind (fun _ => ?_)
  refine contextual.attempt.bind (fun outcome => ?_)
  exact (contextual_data _).bind (fun _ => (aloof_ofExcept _).contextual)

end Enclosed

end Act

/-! ## Template files -/

namespace TemplateFile

open Act

theorem distributionNamed_aloof (name : String) : Aloof (distributionNamed name) := by
  refine aloof_get.bind (fun _ => ?_)
  split
  · exact aloof_pure _
  · exact aloof_throw _

theorem situationNamed_aloof (name : String) : Aloof (situationNamed name) := by
  refine aloof_get.bind (fun _ => ?_)
  split
  · exact aloof_pure _
  · exact aloof_throw _

theorem argument_aloof (spec : FileArgument) : Aloof (argument spec) := by
  cases spec with
  | value scalar => exact aloof_pure _
  | random lowest highest => exact aloof_ofExcept _
  | distribution name => exact (distributionNamed_aloof name).bind (fun _ => aloof_pure _)
  | label name => exact aloof_get.bind (fun _ => aloof_pure _)
  | numeric index forward =>
      refine (aloof_ofExcept _).bind (fun index => aloof_get.bind (fun _ => ?_))
      exact (aloof_ofExcept _).bind (fun _ => aloof_pure _)
  | address kind level bits => exact (aloof_ofExcept _).bind (fun _ => aloof_pure _)

theorem dataArgument_aloof (spec : FileArgument) : Aloof (dataArgument spec) := by
  cases spec with
  | value scalar => exact aloof_pure _
  | random lowest highest => exact aloof_ofExcept _
  | distribution name => exact (distributionNamed_aloof name).bind (fun _ => aloof_pure _)
  | _ => exact aloof_throw _

theorem call_aloof (spec : FileCall) (location : Location) : Aloof (spec.call location) := by
  refine (Aloof.mapM argument_aloof _).bind (fun _ => (aloof_ofExcept _).bind (fun _ => ?_))
  exact (Aloof.optionMapM situationNamed_aloof _).bind (fun _ => aloof_pure _)

mutual

theorem runDataItem_contextual (file : Nat) : ∀ item : DataItem,
    Contextual (runDataItem file item)
  | .origin _ => (aloof_ofExcept _).contextual.bind (fun _ => contextual_data _)
  | .align _ => contextual_data _
  | .label _ => contextual_data _
  | .globalLabel _ => contextual_data _
  | .text _ => contextual_data _
  | .comment _ => contextual_data _
  | .emit _ values =>
      (Aloof.mapM dataArgument_aloof values).contextual.bind (fun _ => contextual_data _)
  | .region region items => (runDataItems_contextual file items).nestedRegion region

theorem runDataItems_contextual (file : Nat) : ∀ items : List (Toml.Span × DataItem),
    Contextual (runDataItems file items)
  | [] => (aloof_pure ()).contextual
  | (span, item) :: rest =>
      ((runDataItem_contextual file item).locating (spanIn file span)).bind
        (fun _ => runDataItems_contextual file rest)

end

mutual

theorem runItem_contextual (file : Nat) (location : Location) : ∀ item : Item,
    Contextual (runItem file location item)
  | .block kind _ items =>
      (aloof_ofExcept _).contextual.bind (fun _ =>
        (aloof_ofExcept _).contextual.bind (fun options =>
          (runItems_contextual file items).scopedBlock kind options location))
  | .call call => (call_aloof call location).contextual.bind (fun call =>
      contextual_operation (.addCall call site))
  | .label name => contextual_operation (.declare (.label name) site)
  | .globalLabel name => contextual_operation (.declare (.globalLabel name) site)
  | .weakLabel name => contextual_operation (.declare (.weakLabel name) site)
  | .numericLabel _ => (aloof_ofExcept _).contextual.bind (fun index =>
      contextual_operation (.declare (.numericLabel index) site))
  | .text content => contextual_operation (.write (.text content) site)
  | .comment content => contextual_operation (.write (.comment content) site)
  | .flagged flag items => (runItems_contextual file items).withAttributes flag.attributes
  | .attributes _ items => (aloof_ofExcept _).contextual.bind (fun attributes =>
      (runItems_contextual file items).withAttributes attributes)
  | .data region items => (runDataItems_contextual file items).dataRegion region site
  | .inSection memory items => (runItems_contextual file items).inSection memory location

theorem runItems_contextual (file : Nat) : ∀ items : List (Toml.Span × Item),
    Contextual (runItems file items)
  | [] => (aloof_pure ()).contextual
  | (span, item) :: rest =>
      ((runItem_contextual file (spanIn file span) item).locating (spanIn file span)).bind
        (fun _ => runItems_contextual file rest)

end

/-! ## Preparation -/

theorem building_aloof {α : Type} (body : Building α) : Aloof (building body) :=
  fun _ => rfl

theorem situationAttribute_aloof (name : String) (value : Attribute) :
    Aloof (situationAttribute name value) := by
  unfold situationAttribute
  split
  · split
    · exact (distributionNamed_aloof _).bind (fun _ => aloof_pure _)
    · exact aloof_throw _
  · exact (aloof_ofExcept _).bind (fun _ => aloof_pure _)

theorem prepareSituation_aloof (key : String) (spec : FileSituation) :
    Aloof (prepareSituation key spec) := by
  unfold prepareSituation
  split
  · exact aloof_throw _
  · refine (Aloof.mapM (fun entry => ?_) _).bind (fun _ => fun _ => rfl)
    exact (situationAttribute_aloof _ _).bind (fun _ => aloof_pure _)

theorem prepareDefault_contextual (spec : FileDefault) : Contextual (prepareDefault spec) := by
  refine (aloof_ofExcept _).contextual.bind (fun names => ?_)
  refine (situationNamed_aloof _).contextual.bind (fun situation => ?_)
  exact contextual_aside (Action.aside_bindDefaults names situation)

theorem prepare_contextual (file : TemplateFile) : Contextual file.prepare := by
  refine (building_aloof _).contextual.bind (fun _ => ?_)
  refine (Contextual.forM (fun _ => (prepareSituation_aloof _ _).contextual) _).bind (fun _ => ?_)
  have configured : ∀ data, Contextual (prepareData data) := fun data =>
    (Contextual.forM (fun _ => contextual_data _) data.definitions).configureData data.config site
  split
  · exact (configured _).bind (fun _ => Contextual.forM prepareDefault_contextual _)
  · exact (aloof_pure ()).contextual.bind (fun _ => Contextual.forM prepareDefault_contextual _)

/-- **Template files perform operations.**  In each phase of a template file all that happens to
the session, and so to the blocks of the phase, are operations. -/
theorem template_contextual (file : TemplateFile) (number : Nat) :
    Contextual (file.template number).pre ∧ Contextual (file.template number).main ∧
      Contextual (file.template number).post := by
  refine ⟨?_, ?_, ?_⟩
  · exact (prepare_contextual file).bind (fun _ => runItems_contextual number file.pre)
  · exact runItems_contextual number file.main
  · exact runItems_contextual number file.post

end TemplateFile

end TestProgram
