/-
# TestProgram.Proofs.Unfoldings -- which distributions can be built, and what they come to

The specifications of a file form a graph: one refers to another where a range of it does
(`Refers`).  A distribution can be built exactly when everything that can be reached from its name
is specified, has proper ranges and lies on no circle (`Buildable`).  It is then the full unfolding
of its specification, in which every reference has become what it refers to (`Unfolds`), and this
is one distribution whatever was built before.

* What is built unfolds the specification (`unfolds_of_standsFor`), and what unfolds it is built:
  a name that is being built is never met again below a name that has an unfolding
  (`Unfolds.standsFor`).
* What has an unfolding is buildable (`Unfolds.buildable`), and what is buildable is built, since
  each name on the way has led to the next one (`Buildable.standsFor`).
* A name is refused for referring to itself only if it does (`standsFor_circle`).

Building ends because a name that is being built is taken out of the table.  The recursion does
not need that: with the whole table at every depth it goes no deeper than there are
specifications (`walk_eq`).
-/
import TestProgram.Proofs.PhaseFaults
import TestProgram.Proofs.RaisedFaults
import TestProgram.Proofs.RememberedDistributions
import Mathlib.Logic.Relation

namespace TestProgram

set_option autoImplicit false

open TestProgram.Computation

/-! ## Ranges that can be built -/

namespace Distribution

theorem impliedWeight_pos (ranges : List ValueRange) : 0 < impliedWeight ranges := by
  unfold impliedWeight
  dsimp only
  split <;> omega

theorem exists_expandRange_iff {implied : Nat} (positive : 0 < implied) (range : ValueRange) :
    (∃ alternatives, expandRange implied range = .ok alternatives) ↔
      range.bias ≠ some 0 ∧ range.value ≠ .collection [] := by
  obtain ⟨value, bias⟩ := range
  have weighs : bias.getD implied = 0 ↔ bias = some 0 := by
    cases bias <;> simp [positive.ne']
  simp only [expandRange, weighs]
  by_cases zero : bias = some 0
  · simp [zero]
  · cases value with
    | collection values => by_cases empty : values = [] <;> simp [zero, rangeAlternatives, empty]
    | _ => simp [zero, rangeAlternatives]

/-- A distribution can be built of some ranges if there are any and each has weight and values. -/
theorem exists_build_iff (ranges : List ValueRange) :
    (∃ distribution, build ranges = .ok distribution) ↔
      ranges ≠ [] ∧ ∀ range ∈ ranges, range.bias ≠ some 0 ∧ range.value ≠ .collection [] := by
  unfold build
  by_cases empty : ranges = []
  · simp [empty]
  · rw [if_neg (by simpa using empty), Except.exists_bind_ok_iff, Except.exists_mapM_ok_iff]
    simp only [exists_expandRange_iff (impliedWeight_pos ranges), ne_eq, empty, not_false_iff,
      true_and]

end Distribution

theorem ValueRange.biased_ok_iff {value : RangeValue} {bias : Int} {range : ValueRange} :
    ValueRange.biased value bias = .ok range ↔ range.value = value ∧
      range.bias.map Int.ofNat = some bias ∧ 1 ≤ bias ∧ bias ≤ 0xFFFFFFFF := by
  have bound : (0 < bias ∧ bias ≤ maxWeight) ↔ 1 ≤ bias ∧ bias ≤ 0xFFFFFFFF := by
    simp only [maxWeight, MachineWord.short]
    omega
  obtain ⟨held, weight⟩ := range
  simp only [ValueRange.biased, bound]
  by_cases fits : 1 ≤ bias ∧ bias ≤ 0xFFFFFFFF
  · simp only [if_pos fits, Except.ok.injEq, ValueRange.mk.injEq, Option.map_eq_some_iff]
    constructor
    · rintro ⟨rfl, rfl⟩
      exact ⟨rfl, ⟨bias.toNat, rfl, Int.toNat_of_nonneg (by omega)⟩, fits⟩
    · rintro ⟨rfl, ⟨weight, rfl, rfl⟩, _⟩
      exact ⟨rfl, rfl⟩
  · simp [fits]

theorem ValueRange.of_ok_iff {value : RangeValue} {bias : Option Int} {range : ValueRange} :
    ValueRange.of value bias = .ok range ↔ range.value = value ∧
      range.bias.map Int.ofNat = bias ∧
        ∀ given, bias = some given → 1 ≤ given ∧ given ≤ 0xFFFFFFFF := by
  cases bias with
  | some bias => simp [ValueRange.of, ValueRange.biased_ok_iff]
  | none =>
      obtain ⟨held, weight⟩ := range
      simp only [ValueRange.of, Except.ok.injEq, ValueRange.mk.injEq, Option.map_eq_none_iff]
      constructor
      · rintro ⟨rfl, rfl⟩
        exact ⟨rfl, rfl, by simp⟩
      · rintro ⟨rfl, rfl, _⟩
        exact ⟨rfl, rfl⟩

namespace Attribute

@[simp] theorem scalar?_ofScalar (scalar : Scalar) : (ofScalar scalar).scalar? = some scalar := by
  cases scalar <;> rfl

theorem toScalar_ok_iff {what : String} {value : Attribute} {scalar : Scalar} :
    value.toScalar what = .ok scalar ↔ value = .ofScalar scalar := by
  constructor
  · intro shaped
    cases value <;> cases shaped <;> rfl
  · rintro rfl
    simp [toScalar]

theorem mapM_toScalar_ok_iff {what : String} {items : List Attribute} {scalars : List Scalar} :
    items.mapM (toScalar what) = .ok scalars ↔ items = scalars.map .ofScalar := by
  rw [Except.mapM_ok_iff, ← List.forall₂_eq_eq_eq, List.forall₂_map_right_iff]
  simp only [toScalar_ok_iff]

theorem distributionName?_eq_some_iff {value : Attribute} {name : String} :
    value.distributionName? = some name ↔ value = .map [("dist", .text name)] := by
  unfold distributionName?
  split
  · simp
  · rename_i other
    simpa using fun same => other name same

end Attribute

namespace TemplateFile

/-! ## Specifications -/

/-- A range of the distribution `a` refers to `b`. -/
def Refers (specs : KeyMap (List FileRange)) (a b : String) : Prop :=
  ∃ specified, specs.find? a = some specified ∧
    ∃ spec ∈ specified, spec.value = .map [("dist", .text b)]

/-- From the distribution `a` references lead to `b`, if only because they are the same. -/
abbrev LeadsTo (specs : KeyMap (List FileRange)) : String → String → Prop :=
  Relation.ReflTransGen (Refers specs)

/-- From the distribution references lead back to it. -/
def OnCircle (specs : KeyMap (List FileRange)) (name : String) : Prop :=
  Relation.TransGen (Refers specs) name name

/-- A scalar, some scalars or a reference. -/
inductive ProperValue : Attribute → Prop
  | scalar (scalar : Scalar) : ProperValue (.ofScalar scalar)
  | collection {scalars : List Scalar} (some : scalars ≠ []) :
      ProperValue (.list (scalars.map .ofScalar))
  | reference (name : String) : ProperValue (.map [("dist", .text name)])

structure ProperRange (spec : FileRange) : Prop where
  value : ProperValue spec.value
  bias : ∀ bias, spec.bias = some bias → 1 ≤ bias ∧ bias ≤ 0xFFFFFFFF

/-- Everything that can be reached is specified, by at least one range and by proper ranges only,
and lies on no circle. -/
structure Buildable (specs : KeyMap (List FileRange)) (name : String) : Prop where
  specified : ∀ other, LeadsTo specs name other → ∃ specified, specs.find? other = some specified ∧
    specified ≠ [] ∧ ∀ spec ∈ specified, ProperRange spec
  ordered : ∀ other, LeadsTo specs name other → ¬ OnCircle specs other

/-! ## Unfoldings -/

/-- What a value contributes when names stand for distributions. -/
inductive Contributes (stands : String → Distribution → Prop) : Attribute → RangeValue → Prop
  | scalar (scalar : Scalar) : Contributes stands (.ofScalar scalar) (.scalar scalar)
  | collection (scalars : List Scalar) :
      Contributes stands (.list (scalars.map .ofScalar)) (.collection scalars)
  | reference {name : String} {distribution : Distribution} (inner : stands name distribution) :
      Contributes stands (.map [("dist", .text name)]) (.nested distribution)

/-- The range comes of its specification when names stand for distributions. -/
structure Realizes (stands : String → Distribution → Prop) (spec : FileRange)
    (range : ValueRange) : Prop where
  value : Contributes stands spec.value range.value
  bias : range.bias.map Int.ofNat = spec.bias
  fits : ∀ bias, spec.bias = some bias → 1 ≤ bias ∧ bias ≤ 0xFFFFFFFF

/-- The distribution is built of the ranges that are specified under the name, where every
reference stands for what it unfolds to. -/
inductive Unfolds (specs : KeyMap (List FileRange)) : String → Distribution → Prop
  | of {name : String} {specified : List FileRange} {ranges : List ValueRange}
      {distribution : Distribution} (stands : String → Distribution → Prop)
      (inner : ∀ other nested, stands other nested → Unfolds specs other nested)
      (found : specs.find? name = some specified)
      (realized : List.Forall₂ (Realizes stands) specified ranges)
      (built : Distribution.build ranges = .ok distribution) : Unfolds specs name distribution

variable {specs left : KeyMap (List FileRange)} {visiting : List String} {name : String}
  {stands : String → Distribution → Prop} {nested : Nested}

theorem Contributes.mono {more : String → Distribution → Prop} {value : Attribute}
    {range : RangeValue} (contributes : Contributes stands value range)
    (known : ∀ other distribution, value = .map [("dist", .text other)] →
      stands other distribution → more other distribution) : Contributes more value range := by
  cases contributes with
  | scalar scalar => exact .scalar scalar
  | collection scalars => exact .collection scalars
  | reference inner => exact .reference (known _ _ rfl inner)

theorem Contributes.exists_nested {other : String} {range : RangeValue}
    (contributes : Contributes stands (.map [("dist", .text other)]) range) :
    ∃ distribution, stands other distribution := by
  generalize same : Attribute.map [("dist", .text other)] = value at contributes
  cases contributes with
  | scalar scalar => cases scalar <;> cases same
  | collection => cases same
  | reference inner =>
      cases same
      exact ⟨_, inner⟩

/-- What contributes is proper unless it is a list of nothing. -/
theorem Contributes.proper_iff {value : Attribute} {range : RangeValue}
    (contributes : Contributes stands value range) :
    ProperValue value ↔ range ≠ .collection [] := by
  cases contributes with
  | scalar scalar => simp [ProperValue.scalar]
  | reference => simp [ProperValue.reference]
  | collection scalars =>
      constructor
      · intro proper empty
        cases empty
        generalize same : Attribute.list (List.map Attribute.ofScalar []) = value at proper
        cases proper with
        | scalar scalar => cases scalar <;> cases same
        | reference => cases same
        | @collection others some =>
            cases others with
            | nil => exact some rfl
            | cons => cases same
      · intro filled
        exact .collection (fun empty => filled (by rw [empty]))

/-- What is proper contributes, if names stand for something. -/
theorem ProperValue.contributes {value : Attribute} (proper : ProperValue value)
    (known : ∀ other, value = .map [("dist", .text other)] →
      ∃ distribution, stands other distribution) : ∃ range, Contributes stands value range := by
  cases proper with
  | scalar scalar => exact ⟨_, .scalar scalar⟩
  | collection => exact ⟨_, .collection _⟩
  | reference name =>
      obtain ⟨distribution, inner⟩ := known name rfl
      exact ⟨_, .reference inner⟩

theorem Realizes.mono {more : String → Distribution → Prop} {spec : FileRange} {range : ValueRange}
    (realizes : Realizes stands spec range)
    (known : ∀ other distribution, spec.value = .map [("dist", .text other)] →
      stands other distribution → more other distribution) : Realizes more spec range :=
  ⟨realizes.value.mono known, realizes.bias, realizes.fits⟩

theorem Realizes.proper_iff {spec : FileRange} {range : ValueRange}
    (realizes : Realizes stands spec range) :
    ProperRange spec ↔ range.bias ≠ some 0 ∧ range.value ≠ .collection [] := by
  have weighs : range.bias ≠ some 0 := by
    intro zero
    have bias := realizes.bias
    rw [zero] at bias
    have low := (realizes.fits 0 bias.symm).1
    omega
  constructor
  · intro proper
    exact ⟨weighs, realizes.value.proper_iff.mp proper.value⟩
  · rintro ⟨_, filled⟩
    exact ⟨realizes.value.proper_iff.mpr filled, realizes.fits⟩

theorem ProperRange.realized {spec : FileRange} (proper : ProperRange spec)
    (known : ∀ other, spec.value = .map [("dist", .text other)] →
      ∃ distribution, stands other distribution) : ∃ range, Realizes stands spec range := by
  obtain ⟨value, contributes⟩ := proper.value.contributes known
  cases given : spec.bias with
  | none => exact ⟨⟨value, none⟩, contributes, by rw [given]; rfl, proper.bias⟩
  | some bias =>
      have positive := (proper.bias bias given).1
      refine ⟨⟨value, some bias.toNat⟩, contributes, ?_, proper.bias⟩
      rw [given]
      exact congrArg some (Int.toNat_of_nonneg (by omega))

/-- A name unfolds to what is built of its ranges when names stand for what they unfold to. -/
theorem unfolds_iff {distribution : Distribution} : Unfolds specs name distribution ↔
    ∃ specified, ∃ ranges : List ValueRange, specs.find? name = some specified ∧
      List.Forall₂ (Realizes (Unfolds specs)) specified ranges ∧
      Distribution.build ranges = .ok distribution := by
  constructor
  · intro unfolds
    cases unfolds with
    | @of _ specified ranges _ stands inner found realized built =>
        refine ⟨specified, ranges, found, realized.imp (fun _ _ realizes => ?_), built⟩
        exact realizes.mono (fun other nested _ known => inner other nested known)
  · rintro ⟨specified, ranges, found, realized, built⟩
    exact .of (Unfolds specs) (fun _ _ known => known) found realized built

/-! ## One step of building -/

theorem valueOf_ok_iff {value : Attribute} {range : RangeValue} :
    valueOf name nested value = .ok range ↔
      Contributes (fun other distribution => nested other = .ok distribution) value range := by
  constructor
  · intro valued
    cases value with
    | list items =>
        obtain ⟨scalars, held, made⟩ := Except.bind_ok_iff.mp valued
        cases made
        rw [Attribute.mapM_toScalar_ok_iff.mp held]
        exact .collection scalars
    | map entries =>
        unfold valueOf at valued
        dsimp only at valued
        cases named : (Attribute.map entries).distributionName? with
        | none =>
            rw [named] at valued
            cases valued
        | some other =>
            rw [named] at valued
            obtain ⟨distribution, inner, made⟩ := Except.bind_ok_iff.mp valued
            cases made
            rw [Attribute.distributionName?_eq_some_iff.mp named]
            exact .reference inner
    | boolean | integer | text =>
        obtain ⟨scalar, held, made⟩ := Except.bind_ok_iff.mp valued
        cases made
        rw [Attribute.toScalar_ok_iff.mp held]
        exact .scalar scalar
  · intro contributes
    cases contributes with
    | scalar scalar => cases scalar <;> rfl
    | collection scalars =>
        exact Except.bind_ok_iff.mpr ⟨scalars, Attribute.mapM_toScalar_ok_iff.mpr rfl, rfl⟩
    | reference inner => exact Except.bind_ok_iff.mpr ⟨_, inner, rfl⟩

theorem rangeOf_ok_iff {spec : FileRange} {range : ValueRange} :
    rangeOf name nested spec = .ok range ↔
      Realizes (fun other distribution => nested other = .ok distribution) spec range := by
  unfold rangeOf
  rw [Except.bind_ok_iff]
  constructor
  · rintro ⟨value, valued, ranged⟩
    obtain ⟨rfl, bias, fits⟩ := ValueRange.of_ok_iff.mp ranged
    exact ⟨valueOf_ok_iff.mp valued, bias, fits⟩
  · rintro ⟨contributes, bias, fits⟩
    exact ⟨range.value, valueOf_ok_iff.mpr contributes,
      ValueRange.of_ok_iff.mpr ⟨rfl, bias, fits⟩⟩

theorem distributionOf_ok_iff {specified : List FileRange} {distribution : Distribution} :
    distributionOf name nested specified = .ok distribution ↔ ∃ ranges : List ValueRange,
      List.Forall₂ (Realizes (fun other distribution => nested other = .ok distribution))
        specified ranges ∧ Distribution.build ranges = .ok distribution := by
  unfold distributionOf
  simp only [Except.bind_ok_iff, Except.mapM_ok_iff, Except.mapError_ok_iff, rangeOf_ok_iff]

/-- Of some proper ranges a distribution is made, if what they refer to stands for something. -/
theorem exists_distributionOf {specified : List FileRange} (filled : specified ≠ [])
    (proper : ∀ spec ∈ specified, ProperRange spec)
    (known : ∀ spec ∈ specified, ∀ other, spec.value = .map [("dist", .text other)] →
      ∃ distribution, nested other = .ok distribution) :
    ∃ distribution, distributionOf name nested specified = .ok distribution := by
  have each : ∀ spec ∈ specified, ∃ range, rangeOf name nested spec = .ok range := by
    intro spec member
    obtain ⟨range, realizes⟩ := (proper spec member).realized (known spec member)
    exact ⟨range, rangeOf_ok_iff.mpr realizes⟩
  obtain ⟨ranges, walked⟩ := Except.exists_mapM_ok_iff.mpr each
  have realized := (Except.mapM_ok_iff.mp walked).imp (fun _ _ => rangeOf_ok_iff.mp)
  have some_range : ranges ≠ [] := by
    rintro rfl
    cases realized
    exact filled rfl
  have buildable : ∀ range ∈ ranges, range.bias ≠ some 0 ∧ range.value ≠ .collection [] := by
    intro range member
    obtain ⟨spec, listed, realizes⟩ := Paired.exists_partner realized range member
    exact realizes.proper_iff.mp (proper spec listed)
  obtain ⟨distribution, built⟩ :=
    (Distribution.exists_build_iff ranges).mpr ⟨some_range, buildable⟩
  exact ⟨distribution, distributionOf_ok_iff.mpr ⟨ranges, realized, built⟩⟩

/-! ## What an unfolding tells of the references -/

section Unfolds

variable {distribution : Distribution}

/-- Where references are realized they stand for something. -/
theorem exists_stands {specified : List FileRange} {ranges : List ValueRange} {other : String}
    (found : specs.find? name = some specified)
    (realized : List.Forall₂ (Realizes stands) specified ranges)
    (refers : Refers specs name other) : ∃ distribution, stands other distribution := by
  obtain ⟨also, also_found, spec, member, same⟩ := refers
  cases found.symm.trans also_found
  obtain ⟨range, _, realizes⟩ := Paired.exists_partner realized.flip spec member
  have contributes := Realizes.value realizes
  rw [same] at contributes
  exact contributes.exists_nested

theorem Unfolds.refers (unfolds : Unfolds specs name distribution) {other : String}
    (refers : Refers specs name other) : ∃ nested, Unfolds specs other nested := by
  obtain ⟨specified, ranges, found, realized, _⟩ := unfolds_iff.mp unfolds
  exact exists_stands found realized refers

theorem Unfolds.leadsTo (unfolds : Unfolds specs name distribution) {other : String}
    (leads : LeadsTo specs name other) : ∃ nested, Unfolds specs other nested := by
  induction leads with
  | refl => exact ⟨distribution, unfolds⟩
  | tail _ refers ih =>
      obtain ⟨nested, also_unfolds⟩ := ih
      exact also_unfolds.refers refers

/-- An unfolding is finite, so no name that has one leads back to itself. -/
theorem Unfolds.not_onCircle (unfolds : Unfolds specs name distribution) :
    ¬ OnCircle specs name := by
  induction unfolds with
  | of stands _ found realized _ ih =>
      intro circle
      obtain ⟨other, refers, back⟩ := Relation.TransGen.head'_iff.mp circle
      obtain ⟨nested, known⟩ := exists_stands found realized refers
      exact ih other nested known (Relation.TransGen.tail' back refers)

theorem Unfolds.specified (unfolds : Unfolds specs name distribution) :
    ∃ specified, specs.find? name = some specified ∧ specified ≠ [] ∧
      ∀ spec ∈ specified, ProperRange spec := by
  obtain ⟨specified, ranges, found, realized, built⟩ := unfolds_iff.mp unfolds
  obtain ⟨filled, buildable⟩ := (Distribution.exists_build_iff ranges).mp ⟨_, built⟩
  refine ⟨specified, found, ?_, fun spec member => ?_⟩
  · rintro rfl
    cases realized
    exact filled rfl
  · obtain ⟨range, listed, realizes⟩ := Paired.exists_partner realized.flip spec member
    exact (Realizes.proper_iff realizes).mpr (buildable range listed)

theorem Unfolds.buildable (unfolds : Unfolds specs name distribution) : Buildable specs name where
  specified := by
    intro other leads
    obtain ⟨_, also_unfolds⟩ := unfolds.leadsTo leads
    exact also_unfolds.specified
  ordered := by
    intro other leads
    obtain ⟨_, also_unfolds⟩ := unfolds.leadsTo leads
    exact also_unfolds.not_onCircle

end Unfolds

theorem Buildable.refers (buildable : Buildable specs name) {other : String}
    (refers : Refers specs name other) : Buildable specs other :=
  ⟨fun _ leads => buildable.specified _ (.head refers leads),
    fun _ leads => buildable.ordered _ (.head refers leads)⟩

/-! ## What names stand for -/

/-- From every name that is being built references lead to this one. -/
def LedTo (specs : KeyMap (List FileRange)) (visiting : List String) (name : String) : Prop :=
  ∀ visited ∈ visiting, Relation.TransGen (Refers specs) visited name

theorem ledTo_nothing (specs : KeyMap (List FileRange)) (name : String) : LedTo specs [] name := by
  simp [LedTo]

theorem LedTo.step (led : LedTo specs visiting name) {other : String}
    (refers : Refers specs name other) : LedTo specs (name :: visiting) other := by
  intro visited among
  rcases List.mem_cons.mp among with rfl | before
  · exact .single refers
  · exact (led visited before).tail refers

section StandsFor

variable {distribution : Distribution}

theorem unfolds_of_standsFor (besides : Besides specs visiting left)
    (standing : standsFor left visiting name = .ok distribution) :
    Unfolds specs name distribution := by
  induction left, visiting, name using standsFor_induction generalizing distribution with
  | visited left visiting name among =>
      rw [standsFor_visited among] at standing
      cases standing
  | unknown left visiting name unvisited missing =>
      rw [standsFor_unknown unvisited missing] at standing
      cases standing
  | known left visiting name specified unvisited found ih =>
      rw [standsFor_of_find? unvisited found] at standing
      obtain ⟨ranges, realized, built⟩ := distributionOf_ok_iff.mp standing
      exact .of _ (fun other _ known => ih other (besides.erase name) known)
        ((besides name unvisited).symm.trans found) realized built

/-- What has an unfolding stands for it, as long as nothing below it is being built. -/
theorem Unfolds.standsFor (unfolds : Unfolds specs name distribution)
    (besides : Besides specs visiting left)
    (apart : ∀ visited ∈ visiting, ¬ LeadsTo specs name visited) :
    standsFor left visiting name = .ok distribution := by
  induction unfolds generalizing left visiting with
  | @of name specified ranges distribution stands inner found realized built ih =>
      have unvisited : name ∉ visiting := fun visited => apart name visited .refl
      rw [standsFor_of_find? unvisited ((besides name unvisited).trans found)]
      refine distributionOf_ok_iff.mpr ⟨ranges, ?_, built⟩
      have listed := (List.forall₂_and_left specified ranges).mpr ⟨fun _ member => member, realized⟩
      refine listed.imp (fun spec range ⟨member, realizes⟩ => ?_)
      refine realizes.mono (fun other nested same known => ?_)
      have refers : Refers specs name other := ⟨specified, found, spec, member, same⟩
      refine ih other nested known (besides.erase name) (fun visited among back => ?_)
      rcases List.mem_cons.mp among with rfl | before
      · exact (Unfolds.of stands inner found realized built).not_onCircle
          (Relation.TransGen.head' refers back)
      · exact apart visited before (.head refers back)

/-- What is buildable stands for something, whichever names have led to it. -/
theorem Buildable.standsFor (buildable : Buildable specs name)
    (besides : Besides specs visiting left) (led : LedTo specs visiting name) :
    ∃ distribution, standsFor left visiting name = .ok distribution := by
  induction left, visiting, name using standsFor_induction with
  | visited left visiting name among =>
      exact absurd (led name among) (buildable.ordered name .refl)
  | unknown left visiting name unvisited missing =>
      obtain ⟨specified, found, _⟩ := buildable.specified name .refl
      rw [besides name unvisited, found] at missing
      cases missing
  | known left visiting name specified unvisited found ih =>
      have also_found := (besides name unvisited).symm.trans found
      obtain ⟨others, other_found, filled, proper⟩ := buildable.specified name .refl
      cases other_found.symm.trans also_found
      rw [standsFor_of_find? unvisited found]
      refine exists_distributionOf filled proper (fun spec member other same => ?_)
      have refers : Refers specs name other := ⟨specified, also_found, spec, member, same⟩
      exact ih other (buildable.refers refers) (besides.erase name) (led.step refers)

/-- If the fault is that a name refers to itself, then it does, and it can be reached. -/
def Honest (specs : KeyMap (List FileRange)) (name : String) (fault : Fault) : Prop :=
  ∀ other, fault.cause = .selfReference other → LeadsTo specs name other ∧ OnCircle specs other

theorem honest_of {cause : Cause} (differs : ∀ other, cause ≠ .selfReference other) :
    Honest specs name (Fault.of cause) :=
  fun other same => absurd same (differs other)

theorem honest_valueOf {value : Attribute}
    (known : ∀ other, value = .map [("dist", .text other)] →
      TestProgram.Fails (Honest specs name) (nested other)) :
    TestProgram.Fails (Honest specs name) (valueOf name nested value) := by
  have shaped : ∀ what value, TestProgram.Fails (Honest specs name)
      (Attribute.toScalar what value) := fun what value =>
    fails_toScalar (fun _ => honest_of (by simp)) value
  cases value with
  | list items => exact (Fails.mapM (fun item _ => shaped _ item)).bind (fun _ => fails_ok _)
  | map entries =>
      unfold valueOf
      dsimp only
      cases named : (Attribute.map entries).distributionName? with
      | none => exact fails_error (honest_of (by simp))
      | some other =>
          exact (known other (Attribute.distributionName?_eq_some_iff.mp named)).bind
            (fun _ => fails_ok _)
  | boolean | integer | text => exact (shaped _ _).bind (fun _ => fails_ok _)

theorem honest_distributionOf {specified : List FileRange}
    (known : ∀ spec ∈ specified, ∀ other, spec.value = .map [("dist", .text other)] →
      TestProgram.Fails (Honest specs name) (nested other)) :
    TestProgram.Fails (Honest specs name) (distributionOf name nested specified) := by
  refine Fails.bind (Fails.mapM (fun spec member => ?_)) (fun ranges fault failed => ?_)
  · refine (honest_valueOf (known spec member)).bind (fun value => ?_)
    exact fails_valueRange (fun _ => honest_of (by simp)) value spec.bias
  · obtain ⟨first, refused, rfl⟩ := Except.mapError_error_iff.mp failed
    have honest : TestProgram.Fails (Honest specs name) (Distribution.build ranges) := by
      refine fails_build (fun cause listed => honest_of ?_) ranges
      simp only [List.mem_cons, List.not_mem_nil, or_false] at listed
      rcases listed with rfl | rfl | rfl <;> simp
    exact honest first refused

/-- Only a name that leads back to itself is refused for that. -/
theorem standsFor_circle (besides : Besides specs visiting left)
    (led : LedTo specs visiting name) :
    TestProgram.Fails (Honest specs name) (standsFor left visiting name) := by
  induction left, visiting, name using standsFor_induction with
  | visited left visiting name among =>
      rw [standsFor_visited among]
      refine fails_error (fun other same => ?_)
      cases same
      exact ⟨.refl, led name among⟩
  | unknown left visiting name unvisited missing =>
      rw [standsFor_unknown unvisited missing]
      exact fails_error (honest_of (by simp))
  | known left visiting name specified unvisited found ih =>
      rw [standsFor_of_find? unvisited found]
      refine honest_distributionOf (fun spec member other same => ?_)
      have refers : Refers specs name other :=
        ⟨specified, (besides name unvisited).symm.trans found, spec, member, same⟩
      have below := ih other (besides.erase name) (led.step refers)
      refine below.mono (fun fault honest last told => ?_)
      obtain ⟨leads, circle⟩ := honest last told
      exact ⟨.head refers leads, circle⟩

end StandsFor

/-! ## Depth -/

/-- Building with the whole table at every depth, cut off when the depth is used up. -/
def walk (specs : KeyMap (List FileRange)) (cut : Building Distribution) :
    Nat → List String → String → Building Distribution
  | 0, _, _ => cut
  | depth + 1, visiting, name => do
      match (← get).find? name with
      | some distribution => pure distribution
      | none =>
          if visiting.contains name then throw (Fault.of (.selfReference name))
          else
            match specs.find? name with
            | none => throw (Fault.of (.unknownDistribution name))
            | some specified => do
                let ranges ← specified.mapM
                  (range name (walk specs cut depth (name :: visiting)))
                finish name ranges

/-- The depth is never used up if it exceeds the count of specifications that are left. -/
theorem walk_eq (cut : Building Distribution) (besides : Besides specs visiting left) {depth : Nat}
    (deep : left.length < depth) :
    walk specs cut depth visiting name = buildNamed left visiting name := by
  induction left, visiting, name using buildNamed.induct generalizing depth with
  | case1 left visiting name ih =>
      obtain ⟨depth, rfl⟩ := Nat.exists_eq_succ_of_ne_zero (Nat.ne_zero_of_lt deep)
      funext built
      cases held : built.find? name with
      | some distribution =>
          rw [buildNamed_remembered held, walk, bind_run]
          simp only [get_run, held]
          rfl
      | none =>
          by_cases visited : name ∈ visiting
          · rw [buildNamed_visited held visited, walk, bind_run]
            simp only [get_run, held, List.contains_iff_mem, visited, if_true]
            rfl
          · cases found : left.find? name with
            | none =>
                have unknown := (besides name visited).symm.trans found
                rw [buildNamed_unknown held visited found, walk, bind_run]
                simp only [get_run, held, List.contains_iff_mem, visited, if_false, unknown]
                rfl
            | some specified =>
                have known := (besides name visited).symm.trans found
                have shorter := length_erase_lt found
                have below : walk specs cut depth (name :: visiting) =
                    buildNamed (left.erase name) (name :: visiting) := by
                  funext other
                  exact ih specified found other (besides.erase name) (by omega)
                rw [buildNamed_known held visited found, walk, bind_run]
                simp only [get_run, held, List.contains_iff_mem, visited, if_false, known, below]

/-! ## Building after other builds -/

/-- What is remembered when these names have been built one after another, or could not be. -/
def leftBy (specs : KeyMap (List FileRange)) (earlier : List String) : KeyMap Distribution :=
  earlier.foldl (fun built name => (buildNamed specs [] name built).2) []

/-- Building a name comes to what it stands for, and what is remembered goes on growing. -/
theorem buildNamed_grown (name : String) {built : KeyMap Distribution} (grown : Grown specs built) :
    (buildNamed specs [] name built).1 = standsFor specs [] name ∧
      Grown specs (buildNamed specs [] name built).2 := by
  have tracks := buildNamed_tracks (besides_nothing specs) name built _ _ ⟨grown, by simp⟩ rfl
  exact ⟨tracks.1, tracks.2.1.grown⟩

theorem grown_leftBy (specs : KeyMap (List FileRange)) (earlier : List String) :
    Grown specs (leftBy specs earlier) := by
  have grows : ∀ (names : List String) (built : KeyMap Distribution), Grown specs built →
      Grown specs (names.foldl (fun built name => (buildNamed specs [] name built).2) built) := by
    intro names
    induction names with
    | nil => exact fun _ grown => grown
    | cons name rest ih => exact fun built grown => ih _ (buildNamed_grown name grown).2
  exact grows earlier [] .nil

theorem buildNamed_leftBy (specs : KeyMap (List FileRange)) (earlier : List String)
    (name : String) :
    (buildNamed specs [] name (leftBy specs earlier)).1 = standsFor specs [] name :=
  (buildNamed_grown name (grown_leftBy specs earlier)).1

/-- Building a name after others ends, succeeds when it can and comes to the unfolding. -/
structure BuildsUnfolding (specs : KeyMap (List FileRange)) (earlier : List String)
    (name : String) : Prop where
  /-- The recursion goes no deeper than there are specifications. -/
  ends : ∀ cut depth, specs.length < depth →
    walk specs cut depth [] name = buildNamed specs [] name
  /-- It succeeds exactly when everything that can be reached is in order. -/
  succeeds : (∃ distribution,
    (buildNamed specs [] name (leftBy specs earlier)).1 = .ok distribution) ↔ Buildable specs name
  /-- What it comes to is the unfolding of the specification, and there is no other one. -/
  unfolds : ∀ distribution, (buildNamed specs [] name (leftBy specs earlier)).1 = .ok distribution ↔
    Unfolds specs name distribution
  /-- It comes to the same after any other builds. -/
  independent : ∀ others, (buildNamed specs [] name (leftBy specs earlier)).1 =
    (buildNamed specs [] name (leftBy specs others)).1
  /-- Only a name that leads back to itself is refused for that. -/
  circles : ∀ fault other, (buildNamed specs [] name (leftBy specs earlier)).1 = .error fault →
    fault.cause = .selfReference other → LeadsTo specs name other ∧ OnCircle specs other

theorem builds_unfolding (specs : KeyMap (List FileRange)) (earlier : List String)
    (name : String) : BuildsUnfolding specs earlier name where
  ends := fun cut _ deep => walk_eq cut (besides_nothing specs) deep
  succeeds := by
    rw [buildNamed_leftBy]
    constructor
    · rintro ⟨distribution, standing⟩
      exact (unfolds_of_standsFor (besides_nothing specs) standing).buildable
    · intro buildable
      exact buildable.standsFor (besides_nothing specs) (ledTo_nothing specs name)
  unfolds := by
    intro distribution
    rw [buildNamed_leftBy]
    exact ⟨unfolds_of_standsFor (besides_nothing specs),
      fun unfolds => unfolds.standsFor (besides_nothing specs) (by simp)⟩
  independent := fun others => by rw [buildNamed_leftBy, buildNamed_leftBy]
  circles := by
    intro fault other failed
    rw [buildNamed_leftBy] at failed
    exact standsFor_circle (besides_nothing specs) (ledTo_nothing specs name) fault failed other

/-- Two names refer to a third, a fourth one to both of them, and a fifth to itself. -/
def diamond : KeyMap (List FileRange) :=
  [("base", [⟨.list [.integer 1, .integer 2], none⟩]),
    ("left", [⟨.map [("dist", .text "base")], some 3⟩]),
    ("loop", [⟨.map [("dist", .text "loop")], none⟩]),
    ("right", [⟨.map [("dist", .text "base")], none⟩, ⟨.integer 4, some 2⟩]),
    ("top", [⟨.map [("dist", .text "left")], none⟩, ⟨.map [("dist", .text "right")], none⟩])]

def pair : Distribution :=
  .mk [.value (.integer 1) 1, .value (.integer 2) 1]

/-- What the fourth name unfolds to, with the third one in it twice. -/
def unfoldedDiamond : Distribution :=
  .mk [.nested (.mk [.nested pair 3]) 1, .nested (.mk [.nested pair 2, .value (.integer 4) 2]) 1]

theorem diamond_unfolds : Unfolds diamond "top" unfoldedDiamond := by
  have base : Unfolds diamond "base" pair := by
    have built : Distribution.build [⟨.collection [.integer 1, .integer 2], none⟩] = .ok pair := rfl
    refine unfolds_iff.mpr ⟨_, _, rfl, .cons ?_ .nil, built⟩
    exact ⟨.collection [.integer 1, .integer 2], rfl, by simp⟩
  have left : Unfolds diamond "left" (.mk [.nested pair 3]) := by
    have built : Distribution.build [⟨.nested pair, some 3⟩] = .ok (.mk [.nested pair 3]) := rfl
    refine unfolds_iff.mpr ⟨_, _, rfl, .cons ?_ .nil, built⟩
    exact ⟨.reference base, rfl, by simp⟩
  have right : Unfolds diamond "right" (.mk [.nested pair 2, .value (.integer 4) 2]) := by
    have built : Distribution.build [⟨.nested pair, none⟩, ⟨.scalar (.integer 4), some 2⟩] =
      .ok (.mk [.nested pair 2, .value (.integer 4) 2]) := rfl
    refine unfolds_iff.mpr ⟨_, _, rfl, .cons ?_ (.cons ?_ .nil), built⟩
    · exact ⟨.reference base, rfl, by simp⟩
    · exact ⟨.scalar (.integer 4), rfl, by simp⟩
  have built : Distribution.build [⟨.nested (.mk [.nested pair 3]), none⟩,
    ⟨.nested (.mk [.nested pair 2, .value (.integer 4) 2]), none⟩] = .ok unfoldedDiamond := rfl
  refine unfolds_iff.mpr ⟨_, _, rfl, .cons ?_ (.cons ?_ .nil), built⟩
  · exact ⟨.reference left, rfl, by simp⟩
  · exact ⟨.reference right, rfl, by simp⟩

/-- The third name is met twice and is no circle, and a build that failed before does no harm. -/
theorem builds_unfolding_diamond : Buildable diamond "top" ∧
    (buildNamed diamond [] "top" (leftBy diamond ["loop", "left"])).1 = .ok unfoldedDiamond := by
  have builds := builds_unfolding diamond ["loop", "left"] "top"
  have built := (builds.unfolds unfoldedDiamond).mpr diamond_unfolds
  exact ⟨builds.succeeds.mp ⟨_, built⟩, built⟩

end TemplateFile
end TestProgram
