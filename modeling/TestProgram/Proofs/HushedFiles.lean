/-
# TestProgram.Proofs.HushedFiles -- template files without their texts and comments

`TemplateFile.silenced` is a file without its items of texts and comments, those of its data
regions among them.  Its preparation is untouched, and its items run beside those of the file
go through the same outcomes and keep to the same session but for texts and comments
(`TemplateFile.runItems_inStep`).  What a file has built is the same on both sides.
-/
import TestProgram.Proofs.HushedStudios
import TestProgram.TemplateFile.Run

namespace TestProgram.TemplateFile

set_option autoImplicit false

open Strategy (Agree)
open Toml (Span)
open TestProgram.Computation

abbrev Abreast (depth : Nat) : Studio Memory → Studio Memory → Prop :=
  Studio.Abreast Eq depth

/-! ## What a file has built -/

section Values

variable {depth : Nat}

theorem building_inStep {α : Type} (body : Building α) :
    InStep (Abreast depth) Eq (building body) (building body) := by
  intro first second abreast
  have same := abreast.memory
  simp only [building, same]
  exact ⟨Agree.refl _, { abreast with memory := rfl }⟩

theorem distributionNamed_inStep (name : String) :
    InStep (Abreast depth) Eq (distributionNamed name) (distributionNamed name) := by
  refine inStep_get.bind (fun here there abreast => ?_)
  rw [abreast.memory]
  split
  · exact inStep_pure rfl
  · exact inStep_throw _

theorem situationNamed_inStep (name : String) :
    InStep (Abreast depth) Eq (situationNamed name) (situationNamed name) := by
  refine inStep_get.bind (fun here there abreast => ?_)
  rw [abreast.memory]
  split
  · exact inStep_pure rfl
  · exact inStep_throw _

theorem situationAttribute_inStep (name : String) (value : Attribute) :
    InStep (Abreast depth) Eq (situationAttribute name value) (situationAttribute name value) := by
  unfold situationAttribute
  split
  · split
    · refine (distributionNamed_inStep _).bind ?_
      rintro distribution _ rfl
      exact inStep_pure rfl
    · exact inStep_throw _
  · refine (Act.ofExcept_inStep (Agree.refl _)).bind ?_
    rintro scalar _ rfl
    exact inStep_pure rfl

theorem prepareSituation_inStep (key : String) (spec : FileSituation) :
    InStep (Abreast depth) Eq (prepareSituation key spec) (prepareSituation key spec) := by
  unfold prepareSituation
  split
  · exact inStep_throw _
  · refine (inStep_mapM_same _ (fun entry _ => ?_)).bind ?_
    · refine (situationAttribute_inStep entry.1 entry.2).bind ?_
      rintro found _ rfl
      exact inStep_pure rfl
    · rintro attributes _ rfl
      exact inStep_modify (fun _ _ abreast => { abreast with memory := by rw [abreast.memory] })

theorem prepareData_inStep (data : FileData) :
    InStep (Abreast depth) Eq (prepareData data) (prepareData data) :=
  Act.configureData_inStep (inStep_forM _ (fun _ _ => Act.data_inStep (DataDesk.define_inStep _)))
    _ _

theorem prepareDefault_inStep (spec : FileDefault) :
    InStep (Abreast depth) Eq (prepareDefault spec) (prepareDefault spec) := by
  refine (Act.ofExcept_inStep (Agree.refl _)).bind ?_
  rintro names _ rfl
  refine (situationNamed_inStep _).bind ?_
  rintro situation _ rfl
  exact Act.session_inStep (Session.bindDefaults_inStep names situation)

theorem prepare_inStep (file : TemplateFile) :
    InStep (Abreast depth) Eq (prepare file) (prepare file) := by
  refine (building_inStep _).bind (fun _ _ _ => ?_)
  refine (inStep_forM file.situations (fun entry _ => prepareSituation_inStep _ _)).bind
    (fun _ _ _ => ?_)
  have defaults : InStep (Abreast depth) Eq (file.defaults.forM prepareDefault)
      (file.defaults.forM prepareDefault) :=
    inStep_forM file.defaults (fun spec _ => prepareDefault_inStep spec)
  cases file.data with
  | none => exact defaults
  | some data => exact (prepareData_inStep data).bind (fun _ _ _ => defaults)

theorem argument_inStep (spec : FileArgument) :
    InStep (Abreast depth) Eq (argument spec) (argument spec) := by
  unfold argument
  split
  · exact inStep_pure rfl
  · exact Act.ofExcept_inStep (Agree.refl _)
  · refine (distributionNamed_inStep _).bind ?_
    rintro distribution _ rfl
    exact inStep_pure rfl
  · refine inStep_get.bind (fun here there abreast => inStep_pure ?_)
    rw [Session.labelReference, abreast.session.scope]
    rfl
  · refine (Act.ofExcept_inStep (Agree.refl _)).bind ?_
    rintro index _ rfl
    refine inStep_get.bind (fun here there abreast => ?_)
    have same : ∀ index forward, Session.numericReference index forward site here.session =
        Session.numericReference index forward site there.session := by
      intro index forward
      rw [Session.numericReference, abreast.session.scope]
      rfl
    simp only [same]
    refine (Act.ofExcept_inStep (Agree.refl _)).bind ?_
    rintro reference _ rfl
    exact inStep_pure rfl
  · refine (Act.ofExcept_inStep (Agree.refl _)).bind ?_
    rintro reference _ rfl
    exact inStep_pure rfl

theorem dataArgument_inStep (spec : FileArgument) :
    InStep (Abreast depth) Eq (dataArgument spec) (dataArgument spec) := by
  unfold dataArgument
  split
  · exact inStep_pure rfl
  · exact Act.ofExcept_inStep (Agree.refl _)
  · refine (distributionNamed_inStep _).bind ?_
    rintro distribution _ rfl
    exact inStep_pure rfl
  · exact inStep_throw _

/-- A call of a file brings no texts along. -/
theorem call_inStep (call : FileCall) (location : Location) :
    InStep (Abreast depth) (fun made other => made = other ∧ made.outputs = [])
      (call.call location) (call.call location) := by
  refine (inStep_mapM_same _ (fun spec _ => argument_inStep spec)).bind ?_
  rintro arguments _ rfl
  refine (Act.ofExcept_inStep (Agree.refl _)).bind ?_
  rintro attributes _ rfl
  have situation : InStep (Abreast depth) Eq (call.situation.mapM situationNamed)
      (call.situation.mapM situationNamed) := by
    cases call.situation with
    | none => exact inStep_pure rfl
    | some name =>
        refine (situationNamed_inStep name).bind ?_
        rintro situation _ rfl
        exact inStep_pure rfl
  refine situation.bind ?_
  rintro situation _ rfl
  exact inStep_pure ⟨rfl, rfl⟩

end Values

/-! ## Files without texts and comments -/

mutual

/-- The item without its texts and comments, unless it is one itself. -/
def DataItem.silenced? : DataItem → Option DataItem
  | .text _ | .comment _ => none
  | .region options items => some (.region options (DataItem.silencedAll items))
  | item => some item

def DataItem.silencedAll : List (Span × DataItem) → List (Span × DataItem)
  | [] => []
  | (span, item) :: rest => (item.silenced?.map (span, ·)).toList ++ DataItem.silencedAll rest

end

mutual

/-- The item without its texts and comments, unless it is one itself. -/
def Item.silenced? : Item → Option Item
  | .text _ | .comment _ => none
  | .block kind given items => some (.block kind given (Item.silencedAll items))
  | .flagged flag items => some (.flagged flag (Item.silencedAll items))
  | .attributes added items => some (.attributes added (Item.silencedAll items))
  | .data options items => some (.data options (DataItem.silencedAll items))
  | .inSection memory items => some (.inSection memory (Item.silencedAll items))
  | item => some item

def Item.silencedAll : List (Span × Item) → List (Span × Item)
  | [] => []
  | (span, item) :: rest => (item.silenced?.map (span, ·)).toList ++ Item.silencedAll rest

end

/-! ## Running them side by side -/

/-- Run an item that was written somewhere. -/
def runLocated {ι : Type} (file : Nat) (run : Span → ι → Run Unit) (entry : Span × ι) :
    Run Unit :=
  Act.locating (spanIn file entry.1) (run entry.1 entry.2)

theorem located_left {ι : Type} {depth : Nat} (run : Span → ι → Run Unit) (file : Nat)
    {span : Span} {item : ι} {left : Option ι}
    (together : InStep (Abreast depth) Eq (run span item) (runLeft (run span) left)) :
    InStep (Abreast depth) Eq (runLocated file run (span, item))
      (runLeft (runLocated file run) (left.map (span, ·))) := by
  cases left with
  | none => exact Act.locating_inStep (spanIn file span) together
  | some other => exact Act.locating_inStep (spanIn file span) together

mutual

theorem runDataItem_inStep (file depth : Nat) : (item : DataItem) →
    InStep (Abreast (depth + 1)) Eq (runDataItem file item)
      (runLeft (runDataItem file) item.silenced?)
  | .origin value => by
      simp only [DataItem.silenced?, runLeft, runDataItem]
      refine (Act.ofExcept_inStep (Agree.refl _)).bind ?_
      rintro origin _ rfl
      exact Act.data_inStep (DataDesk.push_inStep _)
  | .align items => by
      simp only [DataItem.silenced?, runLeft, runDataItem]
      exact Act.data_inStep (DataDesk.align_inStep items)
  | .label name => by
      simp only [DataItem.silenced?, runLeft, runDataItem]
      exact Act.data_inStep (DataDesk.push_inStep _)
  | .globalLabel name => by
      simp only [DataItem.silenced?, runLeft, runDataItem]
      exact Act.data_inStep (DataDesk.push_inStep _)
  | .text content => by
      simp only [DataItem.silenced?, runLeft, runDataItem]
      exact Act.data_unseen (DataDesk.text_unseen content)
  | .comment content => by
      simp only [DataItem.silenced?, runLeft, runDataItem]
      exact Act.data_unseen (DataDesk.comment_unseen content)
  | .emit id values => by
      simp only [DataItem.silenced?, runLeft, runDataItem]
      refine (inStep_mapM_same values (fun value _ => dataArgument_inStep value)).bind ?_
      rintro values _ rfl
      exact Act.data_inStep (DataDesk.emit_inStep id values)
  | .region options items => by
      simp only [DataItem.silenced?, runLeft, runDataItem]
      exact Act.nestedRegion_inStep (runDataItems_inStep file (depth + 1) items) options

theorem runDataItems_inStep (file depth : Nat) : (items : List (Span × DataItem)) →
    InStep (Abreast (depth + 1)) Eq (runDataItems file items)
      (runDataItems file (DataItem.silencedAll items))
  | [] => by
      rw [DataItem.silencedAll, runDataItems]
      exact inStep_pure rfl
  | (span, item) :: rest => by
      rw [DataItem.silencedAll]
      have here := runDataItem_inStep file depth item
      exact next_left (fun _ _ => by rw [runDataItems]; rfl)
        (located_left (fun _ => runDataItem file) file here)
        (runDataItems_inStep file depth rest)

end

mutual

theorem runItem_inStep (file : Nat) (location : Location) : (item : Item) →
    InStep (Abreast 0) Eq (runItem file location item)
      (runLeft (runItem file location) item.silenced?)
  | .block kind given items => by
      simp only [Item.silenced?, runLeft, runItem]
      refine (Act.ofExcept_inStep (Agree.refl _)).bind ?_
      rintro table _ rfl
      refine (Act.ofExcept_inStep (Agree.refl _)).bind ?_
      rintro options _ rfl
      exact Act.scopedBlock_inStep (runItems_inStep file items) kind options location
  | .call call => by
      simp only [Item.silenced?, runLeft, runItem]
      refine (call_inStep call location).bind ?_
      rintro made _ ⟨rfl, silent⟩
      exact Act.session_inStep (Session.addCall_inStep silent site)
  | .label name => by
      simp only [Item.silenced?, runLeft, runItem]
      exact Act.session_inStep
        (Session.declare_inStep (fun scope => { name := .named name, scope }) _ site)
  | .globalLabel name => by
      simp only [Item.silenced?, runLeft, runItem]
      exact Act.session_inStep (Session.declare_inStep
        (fun scope => { name := .named name, isGlobal := true, scope }) _ site)
  | .weakLabel name => by
      simp only [Item.silenced?, runLeft, runItem]
      exact Act.session_inStep (Session.declare_inStep
        (fun scope => { name := .named name, isWeak := true, scope }) _ site)
  | .numericLabel index => by
      simp only [Item.silenced?, runLeft, runItem]
      refine (Act.ofExcept_inStep (Agree.refl _)).bind ?_
      rintro slot _ rfl
      exact Act.session_inStep (Session.declareNumericLabel_inStep slot site)
  | .text content => by
      simp only [Item.silenced?, runLeft, runItem]
      exact Act.session_unseen (Session.addText_unseen content site)
  | .comment content => by
      simp only [Item.silenced?, runLeft, runItem]
      exact Act.session_unseen (Session.addComment_unseen content site)
  | .flagged flag items => by
      simp only [Item.silenced?, runLeft, runItem]
      exact Act.withAttributes_inStep (runItems_inStep file items) flag.attributes
  | .attributes added items => by
      simp only [Item.silenced?, runLeft, runItem]
      refine (Act.ofExcept_inStep (Agree.refl _)).bind ?_
      rintro table _ rfl
      exact Act.withAttributes_inStep (runItems_inStep file items) table
  | .data options items => by
      simp only [Item.silenced?, runLeft, runItem]
      exact Act.dataRegion_inStep (runDataItems_inStep file 0 items) options site
  | .inSection memory items => by
      simp only [Item.silenced?, runLeft, runItem]
      exact Act.inSection_inStep (runItems_inStep file items) memory location

/-- **A file beside the file without texts and comments.**  Its items have the same outcomes,
and leave sessions that differ in texts and comments only. -/
theorem runItems_inStep (file : Nat) : (items : List (Span × Item)) →
    InStep (Abreast 0) Eq (runItems file items) (runItems file (Item.silencedAll items))
  | [] => by
      rw [Item.silencedAll, runItems]
      exact inStep_pure rfl
  | (span, item) :: rest => by
      rw [Item.silencedAll]
      have here := runItem_inStep file (spanIn file span) item
      exact next_left (fun _ _ => by rw [runItems]; rfl)
        (located_left (fun span => runItem file (spanIn file span)) file here)
        (runItems_inStep file rest)

end

end TemplateFile

/-- The file without its texts and comments. -/
def TemplateFile.silenced (file : TemplateFile) : TemplateFile :=
  { file with
    pre := Item.silencedAll file.pre
    main := Item.silencedAll file.main
    post := Item.silencedAll file.post }

end TestProgram
