/-
# TestProgram.Proofs.PreparationFaults -- which faults of a template file point into it

A template file is prepared before its items are run: its distributions and situations are built,
its data is configured, its default situations are bound.  No item does this, so no span of the
file is attached to what fails in it: a value of the wrong shape is told without a place, and what
is defined a second time as if it stood in a line of a program (`Loose`, `raises_prepare`).

All other faults of a template file are as they should be.  The items attach their spans
(`Located`), and since no item makes a block or a call that was written in a line of a program, no
late fault points at one (`Template.generate_fails`).
-/
import TestProgram.Proofs.FaultPlaces
import TestProgram.Proofs.FileRuns
import TestProgram.Proofs.LateFaults

namespace TestProgram

set_option autoImplicit false

open TestProgram.Computation

namespace TemplateFile

/-- Nothing that a file prepares is a block or a call. -/
theorem keeps_prepare (file : TemplateFile) : Keeps Studio.Unlined file.prepare := by
  have aloof : ∀ {act : Run Unit}, Act.Aloof act → Keeps Studio.Unlined act := by
    intro act aloof studio unlined
    show (act studio).2.session.Unlined
    rw [aloof studio]
    exact unlined
  have defaulted : Keeps Studio.Unlined (file.defaults.forM prepareDefault) :=
    Keeps.forM (keeps_prepareDefault Studio.robust_unlined) _
  refine (aloof (building_aloof _)).bind (fun _ => ?_)
  refine (Keeps.forM (fun _ => aloof (prepareSituation_aloof _ _)) _).bind (fun _ => ?_)
  split
  · exact (keeps_prepareData Studio.robust_unlined _).bind (fun _ => defaulted)
  · exact (keeps_pure ()).bind (fun _ => defaulted)

end TemplateFile

/-! ## Faults of the preparation -/

namespace Fault

/-- Data was configured a second time, or something in it was defined a second time. -/
def Twice (fault : Fault) : Prop :=
  fault.cause = .dataConfiguredTwice ∨ ∃ id kind, fault.cause = .definedTwice id kind

/-- The fault has met no location, and it is not that something was there already. -/
def Loose (fault : Fault) : Prop :=
  fault.Unplaced ∧ ¬fault.Twice

/-- The fault is that something was there already, told as if from a line of a program. -/
def Again (fault : Fault) : Prop :=
  fault.Twice ∧ fault.location = some TemplateFile.site

theorem loose_of {cause : Cause} (once : ¬(Fault.of cause).Twice) : (Fault.of cause).Loose :=
  ⟨rfl, once⟩

end Fault

theorem loose_toScalar (what : String) (value : Attribute) :
    Fails Fault.Loose (value.toScalar what) :=
  fails_toScalar (fun _ => Fault.loose_of (by simp [Fault.Twice, Fault.of])) value

theorem loose_toNames (value : Attribute) : Fails Fault.Loose value.toNames := by
  unfold Attribute.toNames
  split
  · exact fails_ok _
  · refine Fails.mapM (fun item _ => ?_)
    split
    · exact fails_ok _
    · exact fails_error (Fault.loose_of (by simp [Fault.Twice, Fault.of]))
  · exact fails_error (Fault.loose_of (by simp [Fault.Twice, Fault.of]))

theorem loose_valueRange (value : RangeValue) (bias : Option Int) :
    Fails Fault.Loose (ValueRange.of value bias) :=
  fails_valueRange (fun _ => Fault.loose_of (by simp [Fault.Twice, Fault.of])) value bias

theorem loose_build (ranges : List ValueRange) : Fails Fault.Loose (Distribution.build ranges) := by
  refine fails_build (fun cause listed => Fault.loose_of ?_) ranges
  simp only [List.mem_cons, List.not_mem_nil, or_false] at listed
  rcases listed with rfl | rfl | rfl <;> simp [Fault.Twice, Fault.of]

namespace TemplateFile

/-! ### Distributions -/

theorem raises_rangeOfExcept {α : Type} {P : Fault → Prop} {outcome : Except Fault α}
    (fails : TestProgram.Fails P outcome) : Raises P (rangeValue.ofExcept outcome) :=
  fun _ fault failed => fails fault failed

theorem raises_range (name : String) {nested : String → Building Distribution}
    (raises : ∀ other, Raises Fault.Loose (nested other)) (spec : FileRange) :
    Raises Fault.Loose (range name nested spec) := by
  have valued : Raises Fault.Loose (rangeValue name nested spec.value) := by
    unfold rangeValue
    split
    · refine (raises_rangeOfExcept (Fails.mapM (fun item _ => loose_toScalar _ item))).bind ?_
      exact fun _ => raises_pure _
    · split
      · exact (raises _).bind (fun _ => raises_pure _)
      · exact raises_throw (Fault.loose_of (by simp [Fault.Twice, Fault.of]))
    · exact (raises_rangeOfExcept (loose_toScalar _ _)).bind (fun _ => raises_pure _)
  refine valued.bind (fun value => ?_)
  have loose := loose_valueRange value spec.bias
  split
  · exact raises_pure _
  · rename_i fault refused
    exact raises_throw (loose fault refused)

theorem raises_finish (name : String) (ranges : List ValueRange) :
    Raises Fault.Loose (finish name ranges) := by
  have loose := loose_build ranges
  unfold finish
  split
  · exact (raises_modify _).bind (fun _ => raises_pure _)
  · rename_i fault refused
    exact raises_throw (loose fault refused)

theorem raises_buildNamed (specs : KeyMap (List FileRange)) (visiting : List String)
    (name : String) : Raises Fault.Loose (buildNamed specs visiting name) := by
  induction specs, visiting, name using buildNamed.induct with
  | case1 specs visiting name ih =>
      rw [buildNamed]
      refine raises_get.bind (fun built => ?_)
      split
      · exact raises_pure _
      · split
        · exact raises_throw (Fault.loose_of (by simp [Fault.Twice, Fault.of]))
        · split
          · exact raises_throw (Fault.loose_of (by simp [Fault.Twice, Fault.of]))
          · rename_i ranges found
            refine Raises.bind (Raises.mapM (fun spec _ => ?_)) (fun _ => raises_finish _ _)
            exact raises_range name (ih ranges found) spec

theorem raises_buildAll (specs : KeyMap (List FileRange)) :
    Raises Fault.Loose (buildAll specs) :=
  Raises.forM (fun _ => (raises_buildNamed _ _ _).bind (fun _ => raises_pure _)) _

theorem raises_building {α : Type} {P : Fault → Prop} {body : Building α}
    (raises : Raises P body) : Raises P (building body) :=
  fun studio fault failed => raises studio.memory.distributions fault failed

/-! ### Situations -/

theorem raises_situationAttribute (name : String) (value : Attribute) :
    Raises Fault.Loose (situationAttribute name value) := by
  unfold situationAttribute
  split
  · split
    · refine (raises_distributionNamed _ (Fault.loose_of ?_)).bind (fun _ => raises_pure _)
      simp [Fault.Twice, Fault.of]
    · exact raises_throw (Fault.loose_of (by simp [Fault.Twice, Fault.of]))
  · exact (Act.raises_ofExcept (loose_toScalar _ _)).bind (fun _ => raises_pure _)

theorem raises_prepareSituation (key : String) (spec : FileSituation) :
    Raises Fault.Loose (prepareSituation key spec) := by
  unfold prepareSituation
  split
  · exact raises_throw (Fault.loose_of (by simp [Fault.Twice, Fault.of]))
  · refine Raises.bind (Raises.mapM (fun entry _ => ?_)) (fun _ => raises_modify _)
    exact (raises_situationAttribute _ _).bind (fun _ => raises_pure _)

theorem raises_prepareDefault (spec : FileDefault) : Raises Fault.Loose (prepareDefault spec) :=
  (Act.raises_ofExcept (loose_toNames _)).bind (fun _ =>
    (raises_situationNamed _ (Fault.loose_of (by simp [Fault.Twice, Fault.of]))).bind (fun _ =>
      Act.raises_session (Action.raises_bindDefaults _ _)))

/-! ### Data -/

end TemplateFile

namespace DataDesk

theorem raises_beginConfig (config : DataConfig) :
    Raises (fun fault => fault.Unplaced ∧ fault.Twice) (beginConfig config) := by
  refine (raises_update (fun store => ?_)).bind (fun _ => raises_remark _)
  unfold DataStore.beginConfig
  split
  · exact fails_ok _
  · exact fails_error ⟨rfl, .inl rfl⟩

theorem raises_define (definition : DataDefinition) :
    Raises (fun fault => fault.Unplaced ∧ fault.Twice) (define definition) := by
  refine raises_get.bind (fun desk => (raises_update (fun store => ?_)).bind (fun _ => ?_))
  · unfold DataStore.define
    split
    · exact fails_error ⟨rfl, .inr ⟨_, _, rfl⟩⟩
    · exact fails_ok _
  · split
    · exact raises_remark _
    · exact raises_pure _

end DataDesk

theorem Fault.again_of {fault : Fault} (unplaced : fault.Unplaced) (twice : fault.Twice) :
    (fault.locate TemplateFile.site).Again := by
  refine ⟨twice, ?_⟩
  rw [Fault.locate, unplaced]
  rfl

namespace TemplateFile

/-- Whatever is done with the outcome of a body is done with one that has the property. -/
theorem raises_attempt {P Q : Fault → Prop} {body : Run Unit} {next : Except Fault Unit → Run Unit}
    (raises : Raises Q body)
    (later : ∀ outcome, TestProgram.Fails Q outcome → Raises P (next outcome)) :
    Raises P (Act.attempt body >>= next) := by
  intro studio fault failed
  rw [bind_run] at failed
  exact later (body studio).1 (raises studio) (body studio).2 fault failed

theorem raises_prepareData (data : FileData) : Raises Fault.Again (prepareData data) := by
  have defining : Raises (fun fault => fault.Unplaced ∧ fault.Twice)
      (data.definitions.forM (fun definition => Act.data (DataDesk.define definition)) :
        Run Unit) :=
    Raises.forM (fun _ => Act.raises_data (DataDesk.raises_define _)) _
  have configuring : Raises Fault.Again
      (Act.locating site (Act.data (DataDesk.beginConfig data.config)) : Run Unit) :=
    Act.raises_locating ((Act.raises_data (DataDesk.raises_beginConfig _)).mono
      (fun fault holds => Fault.again_of holds.1 holds.2))
  refine configuring.bind (fun _ => raises_attempt defining (fun outcome fails => ?_))
  refine (Act.raises_data (raises_modify _)).bind (fun _ => Act.raises_ofExcept ?_)
  intro fault failed
  obtain ⟨cause, here, rfl⟩ := Except.mapError_error_iff.mp failed
  exact Fault.again_of (fails cause here).1 (fails cause here).2

/-- **Faults of the preparation.**  What fails while a file is prepared is told without a place, or
else data was configured or defined a second time, and that is told as if from a line of a
program. -/
theorem raises_prepare (file : TemplateFile) :
    Raises (fun fault => fault.Loose ∨ fault.Again) file.prepare := by
  have building : Raises (fun fault => fault.Loose ∨ fault.Again)
      (building (buildAll file.distributions)) :=
    (raises_building (raises_buildAll _)).mono (fun _ => .inl)
  refine building.bind (fun _ => Raises.bind (Raises.forM (fun entry => ?_) _) (fun _ => ?_))
  · exact (raises_prepareSituation _ _).mono (fun _ => .inl)
  · have defaulting : Raises (fun fault => fault.Loose ∨ fault.Again)
        (file.defaults.forM prepareDefault) :=
      (Raises.forM raises_prepareDefault _).mono (fun _ => .inl)
    split
    · exact ((raises_prepareData _).mono (fun _ => .inr)).bind (fun _ => defaulting)
    · exact (raises_pure ()).bind (fun _ => defaulting)

/-! ## Where faults point -/

/-- The fault does not point at a line of a program, and if it is about the shape of a value it
points at a stretch of the file. -/
def PointsInto (number : Nat) (fault : Fault) : Prop :=
  (∀ file line column, fault.location ≠ some (.caller file line column)) ∧
    (fault.kind = .type → ∃ start stop, fault.location = some (.span number start stop))

theorem pointsInto_span {number start stop : Nat} {fault : Fault}
    (placed : fault.location = some (.span number start stop)) : PointsInto number fault := by
  refine ⟨?_, fun _ => ⟨start, stop, placed⟩⟩
  rw [placed]
  exact unlined_span number start stop

theorem pointsInto_late {number : Nat} {fault : Fault} (late : fault.Late) :
    PointsInto number fault :=
  ⟨late.2, fun shape => absurd shape late.1⟩

theorem runItems_pointsInto {number : Nat} {items : Items} {studio after : Studio Memory}
    {fault : Fault} (failed : runItems number items studio = (.error fault, after)) :
    PointsInto number fault := by
  rw [← runEntries_items] at failed
  obtain ⟨_, _, _, _, _, _, _, _, _, placed, _⟩ := (items_located number items).fails failed
  exact pointsInto_span placed

theorem start_begun (settings : Settings) (memory : Memory) :
    Template.start { session := Session.new settings, memory } =
      (.ok (), begun settings memory) := rfl

theorem new_unlined (settings : Settings) (memory : Memory) :
    Studio.Unlined { session := Session.new settings, memory } :=
  ⟨rfl, (by intro block member; cases member), by intro block none_yet; cases none_yet⟩

theorem generate_pointsInto {file : TemplateFile} {number : Nat} {settings : Settings}
    {memory : Memory} {fault : Fault} {after : Studio Memory}
    (failed : file.generate number settings memory = (.error fault, after)) :
    (∃ studio, file.prepare (begun settings memory) = (.error fault, studio)) ∨
      (∃ studio, file.prepare (begun settings memory) = (.ok (), studio)) ∧
        PointsInto number fault := by
  rcases Template.generate_fails
      ((keeps_prepare file).bind (fun _ => keeps_runItems Studio.robust_unlined number file.pre))
      (keeps_runItems Studio.robust_unlined number file.main)
      (keeps_runItems Studio.robust_unlined number file.post)
      (new_unlined settings memory) (start_begun settings memory) failed with
    ⟨ended, pre_failed⟩ | ⟨⟨ended, pre_ended⟩, late | ⟨found, last, main_failed | post_failed⟩⟩
  · rcases bind_error_iff.mp pre_failed with preparing | ⟨_, middle, prepared, items_failed⟩
    · exact .inl ⟨ended, preparing⟩
    · exact .inr ⟨⟨middle, prepared⟩, runItems_pointsInto items_failed⟩
  all_goals
    obtain ⟨_, middle, prepared, _⟩ := bind_ok_iff.mp pre_ended
    refine .inr ⟨⟨middle, prepared⟩, ?_⟩
  · exact pointsInto_late late
  · exact runItems_pointsInto main_failed
  · exact runItems_pointsInto post_failed

/-- **Faults point into the file.**  A fault that a template file comes to points into the file,
unless the preparation of the file fails with a value of the wrong shape, or with data that is
configured or defined a second time. -/
theorem faults_point_into_file_iff (file : TemplateFile) (number : Nat) (settings : Settings)
    (memory : Memory) (fault : Fault) (after : Studio Memory)
    (failed : file.generate number settings memory = (.error fault, after)) :
    PointsInto number fault ↔
      ¬∃ cause studio, file.prepare (begun settings memory) = (.error cause, studio) ∧
        (cause.kind = .type ∨ cause.Twice) := by
  rcases generate_pointsInto failed with ⟨studio, unprepared⟩ | ⟨⟨studio, prepared⟩, points⟩
  · have only : (∃ cause studio, file.prepare (begun settings memory) = (.error cause, studio) ∧
        (cause.kind = .type ∨ cause.Twice)) ↔ fault.kind = .type ∨ fault.Twice := by
      rw [unprepared]
      constructor
      · rintro ⟨cause, last, same, what⟩
        cases same
        exact what
      · exact fun what => ⟨fault, studio, rfl, what⟩
    rw [only, not_or]
    rcases raises_prepare file _ fault (congrArg Prod.fst unprepared) with
      ⟨unplaced, once⟩ | ⟨twice, placed⟩
    · constructor
      · rintro ⟨_, shaped⟩
        refine ⟨fun shape => ?_, once⟩
        obtain ⟨_, _, placed⟩ := shaped shape
        cases unplaced.symm.trans placed
      · rintro ⟨shapely, _⟩
        exact ⟨unplaced ▸ unlined_none, fun shape => absurd shape shapely⟩
    · constructor
      · rintro ⟨unlined, _⟩
        exact absurd placed (unlined _ _ _)
      · rintro ⟨_, once⟩
        exact absurd twice once
  · refine ⟨fun _ => ?_, fun _ => points⟩
    rintro ⟨cause, last, unprepared, _⟩
    cases prepared.symm.trans unprepared

/-- A numeric label without a number, behind one with. -/
def unnumberedLabel : TemplateFile where
  pre := [(⟨0, 20⟩, .numericLabel (.integer 1)), (⟨30, 70⟩, .numericLabel (.text "one"))]

/-- Nothing is wrong with the preparation, so the fault points into the file. -/
theorem faults_point_into_file_label :
    ∃ fault after, unnumberedLabel.generate 3 {} {} = (.error fault, after) ∧
      fault.kind = .type ∧ fault.location = some (.span 3 30 70) ∧
      (PointsInto 3 fault ↔
        ¬∃ cause studio, unnumberedLabel.prepare (begun {} {}) = (.error cause, studio) ∧
          (cause.kind = .type ∨ cause.Twice)) ∧ PointsInto 3 fault := by
  obtain ⟨fault, after, failed, shape, placed⟩ : ∃ fault after,
      unnumberedLabel.generate 3 {} {} = (.error fault, after) ∧ fault.kind = .type ∧
        fault.location = some (.span 3 30 70) := ⟨_, _, rfl, rfl, rfl⟩
  have unless_unprepared := faults_point_into_file_iff unnumberedLabel 3 {} {} fault after failed
  refine ⟨fault, after, failed, shape, placed, unless_unprepared, unless_unprepared.mpr ?_⟩
  rintro ⟨cause, studio, unprepared, _⟩
  cases unprepared

/-- A situation whose attributes are a number. -/
def attributesOfNumber : TemplateFile where
  situations := [("zero", { attributes := .integer 3 })]

/-- A file that defines a data type twice. -/
def wordTwice : TemplateFile where
  data := some
    { config := { target := "t" }
      types := [⟨"w", ".w", .values { name := "u8" }⟩, ⟨"w", ".w", .values { name := "u8" }⟩] }

/-- The first file fails with a fault about a shape that has no place, the second one with a fault
at a line of a program. -/
theorem faults_not_in_file :
    (∃ fault after, attributesOfNumber.generate 0 {} {} = (.error fault, after) ∧
      fault.kind = .type ∧ fault.location = none ∧ ¬PointsInto 0 fault) ∧
    ∃ fault after, wordTwice.generate 0 {} {} = (.error fault, after) ∧
      fault.location = some (.caller "template" 1 1) ∧ ¬PointsInto 0 fault := by
  constructor
  · obtain ⟨fault, after, failed, shape, unplaced⟩ : ∃ fault after,
        attributesOfNumber.generate 0 {} {} = (.error fault, after) ∧ fault.kind = .type ∧
          fault.location = none := ⟨_, _, rfl, rfl, rfl⟩
    refine ⟨fault, after, failed, shape, unplaced, ?_⟩
    rintro ⟨_, shaped⟩
    obtain ⟨_, _, placed⟩ := shaped shape
    cases unplaced.symm.trans placed
  · have astray : (((wordTwice.generate 0 {} {}).1.map (fun _ => none)).tryCatch
        (fun fault => .ok fault.location)).toOption = some (some (.caller "template" 1 1)) := by
      decide +kernel
    rcases run : wordTwice.generate 0 {} {} with ⟨fault | _, after⟩
    · rw [run] at astray
      have placed : fault.location = some (.caller "template" 1 1) := Option.some.inj astray
      refine ⟨fault, after, rfl, placed, ?_⟩
      rintro ⟨unlined, _⟩
      exact unlined _ _ _ placed
    · rw [run] at astray
      cases astray

end TemplateFile

end TestProgram
