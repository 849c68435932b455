/-
# TestProgram.Proofs.RaisedFaults -- which faults a computation can raise

`Raises P body` says that `P` holds of every fault the body comes to, from whatever state.  There
is one rule for each way of putting computations together, and one lemma for each thing that the
statements of a template file are made of: where a fault arises it has no location yet
(`Fault.Unplaced`), and on its way out of a statement it meets the place the statement was written
at, or the line that stands for a place unknown.

A fault that has met no span but one is located there at last, whichever lines it has met besides
(`Fault.Here`).  This is the law of `locate`, which `Fault.locates` has in full: the first span
that was attached, and if there is none the first location.
-/
import TestProgram.Proofs.FileOperations
import TestProgram.Proofs.Plans

namespace TestProgram

set_option autoImplicit false

/-! ## Locations on the way out -/

def Location.isSpan : Location → Bool
  | .span _ _ _ => true
  | .caller _ _ _ => false

/-- The first span, or the first location if none of them is a span. -/
def Location.first? (attached : List Location) : Option Location :=
  (attached.find? Location.isSpan).or attached.head?

theorem Location.first?_refine (known : Option Location) (new : Location)
    (rest : List Location) :
    first? (refine known new :: rest) = first? (known.toList ++ new :: rest) := by
  rcases known with _ | (_ | _)
  · rfl
  · cases new <;> rfl
  · rfl

namespace Fault

/-- Whatever was attached to a fault and in whatever order, its location is the first span of all
it has met, or else the first location. -/
theorem locates (fault : Fault) (locations : List (Option Location)) :
    (locations.foldl Fault.locate? fault).location =
      Location.first? (fault.location.toList ++ locations.filterMap id) := by
  induction locations generalizing fault with
  | nil =>
      rw [List.foldl_nil, List.filterMap_nil, List.append_nil]
      rcases fault.location with _ | (_ | _) <;> rfl
  | cons location rest ih =>
      rw [List.foldl_cons, ih]
      cases location with
      | none => rfl
      | some new => exact Location.first?_refine fault.location new _

/-- The fault has met no location. -/
def Unplaced (fault : Fault) : Prop :=
  fault.location = none

/-- The fault has met no span but this one. -/
def Here (location : Location) (fault : Fault) : Prop :=
  (fault.locate location).location = some location

theorem unplaced_of (cause : Cause) : (Fault.of cause).Unplaced := rfl

/-- The fault has met no location, and is not about the shape of a value. -/
def Untyped (fault : Fault) : Prop :=
  fault.Unplaced ∧ fault.kind ≠ .type

theorem untyped_of {cause : Cause} (untyped : cause.kind ≠ .type) : (Fault.of cause).Untyped :=
  ⟨rfl, untyped⟩

variable {location : Location} {fault : Fault}

theorem Unplaced.here (unplaced : fault.Unplaced) : fault.Here location := by
  rw [Here, locate, unplaced]
  rfl

theorem Here.locate (here : fault.Here location) : (fault.locate location).Here location := by
  rw [Here, Fault.locate, here]
  cases location <;> rfl

/-- A line that stands for a place unknown is not a span. -/
theorem Unplaced.here_site (unplaced : fault.Unplaced) (file start stop : Nat) :
    (fault.locate TemplateFile.site).Here (.span file start stop) := by
  rw [Here, Fault.locate, Fault.locate, unplaced]
  rfl

end Fault

/-! ## Outcomes -/

section Outcomes

variable {α β : Type} {P : Fault → Prop}

/-- The fault of the outcome has the property, if the outcome is one. -/
def Fails (P : Fault → Prop) (outcome : Except Fault α) : Prop :=
  ∀ fault, outcome = .error fault → P fault

theorem fails_ok (value : α) : Fails P (.ok value : Except Fault α) := by
  intro fault failed
  cases failed

theorem fails_error {fault : Fault} (holds : P fault) :
    Fails P (.error fault : Except Fault α) := by
  intro other failed
  cases failed
  exact holds

theorem Fails.mono {Q : Fault → Prop} {outcome : Except Fault α} (fails : Fails P outcome)
    (weaker : ∀ fault, P fault → Q fault) : Fails Q outcome :=
  fun fault failed => weaker fault (fails fault failed)

theorem Fails.bind {outcome : Except Fault α} {next : α → Except Fault β}
    (here : Fails P outcome) (there : ∀ value, Fails P (next value)) :
    Fails P (outcome >>= next) := by
  intro fault failed
  cases outcome with
  | error cause =>
      cases failed
      exact here fault rfl
  | ok value => exact there value fault failed

theorem Fails.mapM {step : α → Except Fault β} {items : List α}
    (each : ∀ item ∈ items, Fails P (step item)) : Fails P (items.mapM step) := by
  intro fault failed
  obtain ⟨item, member, here⟩ := Except.mapM_error failed
  exact each item member fault here

theorem Fails.foldlM {step : β → α → Except Fault β} {items : List α}
    (each : ∀ item ∈ items, ∀ held, Fails P (step held item)) :
    ∀ held : β, Fails P (items.foldlM step held) := by
  induction items with
  | nil => exact fun held => fails_ok held
  | cons item rest ih =>
      intro held
      rw [List.foldlM_cons]
      exact (each item List.mem_cons_self held).bind
        (ih (fun other member => each other (List.mem_cons_of_mem _ member)))

theorem unplaced_toTable (what : String) (value : Attribute) :
    Fails Fault.Unplaced (value.toTable what) := by
  unfold Attribute.toTable
  split
  · exact fails_ok _
  · exact fails_error (Fault.unplaced_of _)

theorem unplaced_toLabelIndex (value : Attribute) : Fails Fault.Unplaced value.toLabelIndex := by
  unfold Attribute.toLabelIndex
  split
  · exact fails_ok _
  · exact fails_error (Fault.unplaced_of _)

theorem unplaced_ofAttributes (attributes : Attributes) :
    Fails Fault.Unplaced (BlockOptions.ofAttributes attributes) := by
  refine Fails.foldlM (fun entry _ options => ?_) _
  unfold BlockOptions.add
  split
  · exact fails_ok _
  · split
    · exact fails_ok _
    · exact fails_error (Fault.unplaced_of _)

theorem unplaced_narrowAll (reference : AddressReference) (ranges : List (Nat × Nat)) :
    Fails Fault.Unplaced (reference.narrowAll ranges) := by
  refine Fails.foldlM (fun range _ held => ?_) _
  unfold AddressReference.narrow
  dsimp only
  split
  · exact fails_error (Fault.unplaced_of _)
  · split
    · exact fails_error (Fault.unplaced_of _)
    · exact fails_ok _

theorem unplaced_ofInt (index : Int) : Fails Fault.Unplaced (NumericSlot.ofInt index) := by
  unfold NumericSlot.ofInt
  split
  · exact fails_ok _
  · exact fails_error (Fault.unplaced_of _)

theorem unplaced_between (lowest highest : Int) :
    Fails Fault.Unplaced (Argument.between lowest highest) := by
  unfold Argument.between
  split
  · exact fails_error (Fault.unplaced_of _)
  · exact fails_ok _

theorem unplaced_origin (value : Attribute) : Fails Fault.Unplaced (Origin.ofAttribute value) := by
  unfold Origin.ofAttribute
  split
  · split
    · exact fails_error (Fault.unplaced_of _)
    · exact fails_ok _
  · exact fails_ok _
  · exact fails_error (Fault.unplaced_of _)

theorem unplaced_directive (definition : DataDefinition) (values : List Scalar) :
    Fails Fault.Unplaced (definition.directive values) := by
  unfold DataDefinition.directive
  split
  · exact fails_ok _
  · split
    · split
      · exact fails_error (Fault.unplaced_of _)
      · exact fails_ok _
    · exact fails_error (Fault.unplaced_of _)
  · split
    · exact fails_ok _
    · exact fails_error (Fault.unplaced_of _)

/-- A strategy that is not there was named wrongly. -/
theorem untyped_lookup {γ : Type} (table : KeyMap γ) (option : StrategyOption)
    (name : Option String) : Fails Fault.Untyped (Registry.lookup table option name) := by
  unfold Registry.lookup
  dsimp only
  split
  · exact fails_ok _
  · exact fails_error (Fault.untyped_of (by simp [Cause.kind]))

/-- A block that is refused has strategies that are out of place or unknown. -/
theorem untyped_checks (session : Session) (strategies : StrategySet) (kind : BlockKind) :
    Fails Fault.Untyped ((strategies.validate kind).bind
      (fun _ => session.registry.check strategies)) := by
  refine Fails.bind ?_ (fun _ => ?_)
  · unfold StrategySet.validate
    split
    · exact fails_ok _
    · exact fails_error (Fault.untyped_of (by simp [Cause.kind]))
  · unfold Registry.check
    split
    · exact fails_error (Fault.untyped_of (by simp [Cause.kind]))
    · exact fails_ok _

theorem fails_toScalar {what : String} (shaped : ∀ shape, P (Fault.of (.notScalar what shape)))
    (value : Attribute) : Fails P (value.toScalar what) := by
  unfold Attribute.toScalar
  split
  · exact fails_ok _
  · exact fails_error (shaped _)

theorem fails_valueRange (biased : ∀ bias, P (Fault.of (.biasNotPositive bias)))
    (value : RangeValue) (bias : Option Int) : Fails P (ValueRange.of value bias) := by
  cases bias with
  | none => exact fails_ok _
  | some bias =>
      unfold ValueRange.of ValueRange.biased
      dsimp only
      split
      · exact fails_ok _
      · exact fails_error (biased bias)

theorem fails_build
    (each : ∀ cause ∈ [Cause.noRanges, .weightNotPositive, .emptyCollection], P (Fault.of cause))
    (ranges : List ValueRange) : Fails P (Distribution.build ranges) := by
  unfold Distribution.build
  split
  · exact fails_error (each _ (by simp))
  · refine Fails.bind (Fails.mapM (fun range _ => ?_)) (fun _ => fails_ok _)
    unfold Distribution.expandRange
    dsimp only
    split
    · exact fails_error (each _ (by simp))
    · unfold Distribution.rangeAlternatives
      split
      · exact fails_ok _
      · split
        · exact fails_error (each _ (by simp))
        · exact fails_ok _
      · exact fails_ok _

end Outcomes

/-! ## Computations -/

namespace Computation

variable {σ α β : Type} {P Q : Fault → Prop}

/-- Every fault that the computation comes to has the property. -/
def Raises (P : Fault → Prop) (body : ExceptT Fault (StateM σ) α) : Prop :=
  ∀ state fault, (body state).1 = .error fault → P fault

theorem raises_pure (value : α) : Raises P (pure value : ExceptT Fault (StateM σ) α) := by
  intro state fault failed
  cases failed

theorem raises_throw {fault : Fault} (holds : P fault) :
    Raises P (throw fault : ExceptT Fault (StateM σ) α) := by
  intro state fault failed
  cases failed
  exact holds

/-- What would come after a fault makes no difference. -/
theorem raises_throw_bind {fault : Fault} (holds : P fault)
    (next : α → ExceptT Fault (StateM σ) β) :
    Raises P ((throw fault : ExceptT Fault (StateM σ) α) >>= next) := by
  intro state fault failed
  cases failed
  exact holds

theorem raises_get : Raises P (get : ExceptT Fault (StateM σ) σ) := by
  intro state fault failed
  cases failed

theorem raises_modify (change : σ → σ) :
    Raises P (modify change : ExceptT Fault (StateM σ) PUnit) := by
  intro state fault failed
  cases failed

theorem Raises.mono {body : ExceptT Fault (StateM σ) α} (raises : Raises P body)
    (weaker : ∀ fault, P fault → Q fault) : Raises Q body :=
  fun state fault failed => weaker fault (raises state fault failed)

theorem Raises.bind {first : ExceptT Fault (StateM σ) α}
    {next : α → ExceptT Fault (StateM σ) β} (here : Raises P first)
    (there : ∀ value, Raises P (next value)) : Raises P (first >>= next) := by
  intro state fault failed
  rw [bind_run] at failed
  rcases run : first state with ⟨cause | value, after⟩
  · rw [run] at failed
    cases failed
    exact here state fault (by rw [run])
  · rw [run] at failed
    exact there value after fault failed

theorem Raises.mapM {step : α → ExceptT Fault (StateM σ) β} {items : List α}
    (each : ∀ item ∈ items, Raises P (step item)) : Raises P (items.mapM step) := by
  intro state fault failed
  obtain ⟨item, member, before, here⟩ :=
    mapM_error (Prod.ext failed rfl : items.mapM step state = (.error fault, _))
  exact each item member before fault (congrArg Prod.fst here)

theorem Raises.forM {step : α → ExceptT Fault (StateM σ) PUnit}
    (each : ∀ item, Raises P (step item)) : ∀ items : List α, Raises P (items.forM step)
  | [] => raises_pure _
  | item :: rest => (each item).bind (fun _ => Raises.forM each rest)

theorem Raises.optionMapM {step : α → ExceptT Fault (StateM σ) β}
    (each : ∀ item, Raises P (step item)) : ∀ item : Option α, Raises P (item.mapM step)
  | none => raises_pure none
  | some item => (each item).bind (fun _ => raises_pure _)

theorem Raises.here {location : Location} {body : ExceptT Fault (StateM σ) α}
    (raises : Raises Fault.Unplaced body) : Raises (Fault.Here location) body :=
  raises.mono (fun _ unplaced => unplaced.here)

end Computation

open TestProgram.Computation

/-! ## Writing data -/

namespace DataDesk

variable {P : Fault → Prop}

theorem raises_update {change : DataStore → Except Fault DataStore}
    (fails : ∀ store, Fails P (change store)) : Raises P (update change) := by
  intro desk fault failed
  unfold update at failed
  split at failed
  · cases failed
  · rename_i cause refused
    cases failed
    exact fails desk.store _ refused

theorem raises_remark (made : Remark) : Raises P (remark made) :=
  raises_modify _

theorem raises_push (directive : DataDirective) : Raises Fault.Unplaced (push directive) := by
  refine raises_update (fun store => ?_)
  unfold DataStore.push
  split
  · exact fails_ok _
  · exact fails_error (Fault.unplaced_of _)

theorem raises_enter (region : DataRegion) (memory : Option MemorySection) :
    Raises Fault.Unplaced (enter region memory) := by
  refine raises_get.bind (fun desk => (raises_update (fun store => ?_)).bind (fun _ => ?_))
  · unfold DataStore.enter
    split
    · split
      · exact fails_ok _
      · exact fails_ok _
    · exact fails_error (Fault.unplaced_of _)
  · split
    · exact raises_remark _
    · exact raises_pure _

/-! ## Drawing values -/

/-- A draw by itself always succeeds. -/
theorem raises_lifted {α : Type} (draw : Draw α) : Raises P (draw : Distribution.Sampler α) := by
  intro random fault failed
  cases failed

theorem raises_choose {entries : List (Nat × Distribution.Sampler Scalar)}
    (each : ∀ entry ∈ entries, Raises P entry.2) {c : Nat} {chosen : Distribution.Sampler Scalar}
    (found : Distribution.choose c entries = some chosen) : Raises P chosen := by
  fun_induction Distribution.choose c entries with
  | case1 => cases found
  | case2 c weight entry =>
      cases found
      exact each _ List.mem_cons_self
  | case3 c weight entry rest _ lighter =>
      cases found
      exact each _ List.mem_cons_self
  | case4 c weight entry rest _ heavier ih =>
      exact ih (fun other member => each other (List.mem_cons_of_mem _ member)) found

mutual

theorem raises_sample : ∀ distribution : Distribution,
    Raises Fault.Untyped distribution.sample
  | .mk alternatives => by
      have malformed : Fault.Untyped (Fault.of .malformedDistribution) :=
        Fault.untyped_of (by decide)
      rw [Distribution.sample]
      split
      · exact raises_throw malformed
      · refine (raises_lifted _).bind (fun c => ?_)
        cases found : Distribution.choose c (Distribution.samplers alternatives) with
        | none => exact raises_throw malformed
        | some chosen => exact raises_choose (raises_samplers alternatives) found

theorem raises_samplers : ∀ alternatives : List Alternative,
    ∀ entry ∈ Distribution.samplers alternatives, Raises Fault.Untyped entry.2
  | [], _, member => by cases member
  | .value scalar weight :: rest, entry, member => by
      rw [Distribution.samplers] at member
      rcases List.mem_cons.mp member with rfl | later
      · exact raises_pure _
      · exact raises_samplers rest entry later
  | .nested distribution weight :: rest, entry, member => by
      rw [Distribution.samplers] at member
      rcases List.mem_cons.mp member with rfl | later
      · exact raises_sample distribution
      · exact raises_samplers rest entry later

end

theorem raises_between (lowest highest : Int) :
    Raises Fault.Untyped (Draw.between lowest highest) := by
  unfold Draw.between
  split
  · exact raises_throw (Fault.untyped_of (by simp [Cause.kind]))
  · exact raises_lifted _

theorem raises_draw {α : Type} {sampler : Distribution.Sampler α}
    (raises : Raises Fault.Untyped sampler) : Raises Fault.Unplaced (drawValue.draw sampler) :=
  fun desk fault failed => (raises desk.engine.random fault failed).1

theorem raises_drawValue (argument : Argument) : Raises Fault.Unplaced (drawValue argument) := by
  cases argument with
  | value scalar => exact raises_pure _
  | random distribution => exact raises_draw (raises_sample distribution)
  | range lowest highest =>
      exact (raises_draw (raises_between lowest highest)).bind (fun _ => raises_pure _)
  | label reference => exact raises_throw (Fault.unplaced_of _)
  | address reference => exact raises_throw (Fault.unplaced_of _)

theorem raises_emit (id : String) (values : List Argument) :
    Raises Fault.Unplaced (emit id values) := by
  refine raises_get.bind (fun desk => ?_)
  split
  · exact raises_throw (Fault.unplaced_of _)
  · rename_i definition _
    refine (Raises.mapM (fun value _ => raises_drawValue value)).bind (fun scalars => ?_)
    have unplaced := unplaced_directive definition scalars
    cases made : definition.directive scalars with
    | ok directive => exact raises_push directive
    | error fault => exact raises_throw (unplaced fault made)

theorem raises_align (items : Nat) : Raises Fault.Unplaced (align items) := by
  refine raises_get.bind (fun desk => ?_)
  unfold DataStore.alignment
  dsimp only
  split
  · rename_i directive made
    exact raises_push directive
  · rename_i fault refused
    split at refused
    · cases refused
    · cases refused
      exact raises_throw (Fault.unplaced_of _)

end DataDesk

/-! ## Sessions -/

namespace Action

variable {α : Type} {P : Fault → Prop}

theorem raises_ofExcept {outcome : Except Fault α} (fails : Fails P outcome) :
    Raises P (ofExcept outcome) :=
  fun _ fault failed => fails fault failed

theorem raises_remark (made : Remark) : Raises P (remark made) :=
  raises_modify _

theorem raises_locating {location : Location} {body : Action α}
    (raises : Raises (fun fault => P (fault.locate location)) body) :
    Raises P (locating location body) := by
  intro session fault failed
  obtain ⟨cause, here, rfl⟩ := Except.mapError_error_iff.mp failed
  exact raises session cause here

/-- A statement of a template file that was made at a line which stands for a place unknown. -/
theorem raises_site {body : Action α} (raises : Raises Fault.Unplaced body)
    (file start stop : Nat) :
    Raises (Fault.Here (.span file start stop)) (locating TemplateFile.site body) :=
  raises_locating (raises.mono (fun _ unplaced => unplaced.here_site file start stop))

theorem raises_inBlock (what : String) (change : OpenBlock → OpenBlock) :
    Raises Fault.Unplaced (Session.inBlock what change) := by
  intro session fault failed
  unfold Session.inBlock at failed
  split at failed
  · cases failed
  · cases failed
    exact Fault.unplaced_of _

theorem raises_bindDefaults (names : List String) (situation : Situation) :
    Raises P (Session.bindDefaults names situation) :=
  (Raises.forM (fun _ => raises_remark _) names).bind (fun _ => raises_modify _)

section Sites

variable (file start stop : Nat)

theorem raises_declare (declaration : Declaration) :
    Raises (Fault.Here (.span file start stop)) (declaration.perform TemplateFile.site) := by
  cases declaration with
  | numericLabel index =>
      refine raises_site ((raises_ofExcept (unplaced_ofInt index)).bind (fun slot => ?_)) _ _ _
      exact raises_get.bind (fun session => raises_inBlock _ _)
  | _ => exact raises_site (raises_get.bind (fun session => raises_inBlock _ _)) _ _ _

/-- A call is located where it says itself. -/
theorem raises_addCall {call : Call} {location : Location} (placed : call.location = some location)
    (site : Location) : Raises (Fault.Here location) (Session.addCall call site) := by
  intro session fault failed
  simp only [Session.addCall, placed, Option.getD_some] at failed
  exact raises_locating
    ((raises_inBlock _ _).mono (fun _ unplaced => unplaced.here.locate)) session fault failed

theorem raises_openBlock (kind : BlockKind) (options : BlockOptions) (location : Location) :
    Raises (Fault.Here location) (Session.openBlock kind options (some location)) := by
  intro session fault failed
  unfold Session.openBlock at failed
  split at failed
  · cases failed
  · split at failed
    · cases failed
    · cases failed
      exact (Fault.unplaced_of _).here.locate

theorem raises_enterSection (memory : MemorySection) (location : Location) :
    Raises (Fault.Here location) (Session.enterSection memory location) := by
  refine raises_locating
    (Raises.mono (?_ : Raises Fault.Unplaced _) (fun _ unplaced => unplaced.here.locate))
  dsimp only
  split
  · exact raises_throw_bind (Fault.unplaced_of _) _
  · refine raises_get.bind (fun session => ?_)
    split
    · exact raises_throw (Fault.unplaced_of _)
    · exact (raises_remark _).bind (fun _ => (raises_modify _).bind (fun _ => raises_pure _))

end Sites

end Action

/-! ## Templates -/

namespace Act

variable {ε α : Type} {P : Fault → Prop}

theorem raises_session {body : Action α} (raises : Raises P body) :
    Raises P (session body : Act ε α) :=
  fun studio fault failed => raises studio.session fault failed

theorem raises_data {body : DataAction α} (raises : Raises P body) :
    Raises P (data body : Act ε α) :=
  fun studio fault failed => raises studio.desk fault failed

theorem raises_ofExcept {outcome : Except Fault α} (fails : Fails P outcome) :
    Raises P (ofExcept outcome : Act ε α) :=
  fun _ fault failed => fails fault failed

/-- The outcome of something that was done at a line which stands for a place unknown. -/
theorem raises_ofExcept_site {outcome : Except Fault α} (unplaced : Fails Fault.Unplaced outcome)
    (file start stop : Nat) : Raises (Fault.Here (.span file start stop))
      (ofExcept (located TemplateFile.site outcome) : Act ε α) := by
  intro studio fault failed
  obtain ⟨cause, here, rfl⟩ := Except.mapError_error_iff.mp failed
  exact (unplaced cause here).here_site file start stop

theorem raises_locating {location : Location} {body : Act ε α}
    (raises : Raises (fun fault => P (fault.locate location)) body) :
    Raises P (locating location body) := by
  intro studio fault failed
  obtain ⟨cause, here, rfl⟩ := Except.mapError_error_iff.mp failed
  exact raises studio cause here

end Act

/-! ## Template files -/

namespace TemplateFile

variable (number : Nat) (span : Toml.Span)

theorem raises_distributionNamed {P : Fault → Prop} (name : String)
    (unknown : P (Fault.of (.unknownDistribution name))) : Raises P (distributionNamed name) := by
  refine raises_get.bind (fun studio => ?_)
  split
  · exact raises_pure _
  · exact raises_throw unknown

theorem raises_situationNamed {P : Fault → Prop} (name : String)
    (unknown : P (Fault.of (.unknownSituation name))) : Raises P (situationNamed name) := by
  refine raises_get.bind (fun studio => ?_)
  split
  · exact raises_pure _
  · exact raises_throw unknown

theorem raises_argument (spec : FileArgument) :
    Raises (Fault.Here (spanIn number span)) (argument spec) := by
  cases spec with
  | value scalar => exact raises_pure _
  | random lowest highest => exact Act.raises_ofExcept_site (unplaced_between _ _) _ _ _
  | distribution name =>
      exact (raises_distributionNamed name (Fault.unplaced_of _).here).bind (fun _ => raises_pure _)
  | label name => exact raises_get.bind (fun _ => raises_pure _)
  | numeric index forward =>
      refine (Act.raises_ofExcept (unplaced_toLabelIndex index)).here.bind (fun index => ?_)
      refine raises_get.bind (fun studio => Raises.bind ?_ (fun _ => raises_pure _))
      exact Act.raises_ofExcept_site
        ((unplaced_ofInt index).bind (fun slot => fails_ok _)) _ _ _
  | address kind level bits =>
      exact (Act.raises_ofExcept (unplaced_narrowAll _ bits)).here.bind (fun _ => raises_pure _)

theorem raises_dataArgument (spec : FileArgument) :
    Raises Fault.Unplaced (dataArgument spec) := by
  cases spec with
  | value scalar => exact raises_pure _
  | random lowest highest => exact Act.raises_ofExcept (unplaced_between _ _)
  | distribution name =>
      exact (raises_distributionNamed name (Fault.unplaced_of _)).bind (fun _ => raises_pure _)
  | _ => exact raises_throw (Fault.unplaced_of _)

theorem raises_call (call : FileCall) :
    Raises (Fault.Here (spanIn number span))
      (runItem number (spanIn number span) (.call call)) := by
  rw [runItem]
  simp only [FileCall.call, bind_assoc, pure_bind]
  refine (Raises.mapM (fun spec _ => raises_argument number span spec)).bind (fun arguments => ?_)
  refine (Act.raises_ofExcept (unplaced_toTable _ _)).here.bind (fun attributes => ?_)
  refine (Raises.optionMapM (fun name => raises_situationNamed name (Fault.unplaced_of _).here)
    call.situation).bind (fun situation => ?_)
  exact Act.raises_session (Action.raises_addCall rfl site)

end TemplateFile
end TestProgram
