/-
# TestProgram.Proofs.SampledValues -- sampling a distribution follows its probabilities

Sampling draws a number at each level and goes on with the alternative in whose stretch it falls;
the probability of a value multiplies shares and adds them up.  Both are programs that can be run
with something else in the place of draws and of numbers (`sampleBy`, `probabilityBy`): with
uniform draws the first is a law on values, and with exact rationals the second tells a number.

For a distribution that has been built the two agree (`Built.law_eq_chance`): of the draws below
the total as many lead to an alternative as it has weight (`sum_choose`), so the law of the whole is
the mean of those of the alternatives, and that is what the shares add up to.
-/
import TestProgram.Proofs.PhaseFaults
import Mathlib.Probability.Distributions.Uniform

namespace TestProgram

set_option autoImplicit false

namespace Distribution

/-! ## Sampling, whatever draws -/

section By

variable {m : Type → Type} [Monad m]

mutual

/-- One value, with the numbers below totals drawn in this way. -/
def sampleBy (draw : Nat → m Nat) : Distribution → ExceptT Fault m Scalar
  | .mk alternatives =>
      if totalOf alternatives = 0 then throw (Fault.of .malformedDistribution)
      else do
        let c ← (draw (totalOf alternatives) : m Nat)
        (choose c (samplersBy draw alternatives)).getD (throw (Fault.of .malformedDistribution))

def samplersBy (draw : Nat → m Nat) : List Alternative → List (Nat × ExceptT Fault m Scalar)
  | [] => []
  | .value scalar weight :: rest => (weight, pure scalar) :: samplersBy draw rest
  | .nested distribution weight :: rest =>
      (weight, sampleBy draw distribution) :: samplersBy draw rest

end

end By

mutual

/-- Sampling draws from the weights. -/
theorem sample_eq : ∀ distribution : Distribution,
    sample distribution = sampleBy Draw.weighted distribution
  | .mk alternatives => by rw [sample, sampleBy, samplers_eq alternatives]

theorem samplers_eq : ∀ alternatives : List Alternative,
    samplers alternatives = samplersBy Draw.weighted alternatives
  | [] => rfl
  | .value scalar weight :: rest => by rw [samplers, samplersBy, samplers_eq rest]
  | .nested distribution weight :: rest => by
      rw [samplers, samplersBy, samplers_eq rest, sample_eq distribution]

end

/-! ## Probabilities, whatever numbers are -/

section Number

variable {K : Type} [Add K] [Mul K] [Div K]

mutual

/-- The chance of a value in numbers of this kind, summed over the alternatives in order. -/
def probabilityBy (number : Nat → K) (value : Scalar) : Distribution → K
  | .mk alternatives =>
      probabilityInBy number value (number (totalOf alternatives)) (number 0) alternatives

def probabilityInBy (number : Nat → K) (value : Scalar) (total sum : K) : List Alternative → K
  | [] => sum
  | .value scalar weight :: rest =>
      let share := number weight / total
      probabilityInBy number value total (sum + (if scalar = value then share else number 0)) rest
  | .nested distribution weight :: rest =>
      let share := number weight / total
      probabilityInBy number value total (sum + share * probabilityBy number value distribution)
        rest

end

end Number

mutual

theorem probability_eq (value : Scalar) : ∀ distribution : Distribution,
    probability value distribution = probabilityBy Float.ofNat value distribution
  | .mk alternatives => by
      rw [probability, probabilityBy, probabilityIn_eq value _ _ alternatives]
      rfl

theorem probabilityIn_eq (value : Scalar) (total : Float) : ∀ (sum : Float)
    (alternatives : List Alternative), probabilityIn value total sum alternatives =
      probabilityInBy Float.ofNat value total sum alternatives
  | _, [] => rfl
  | sum, .value scalar weight :: rest => by
      rw [probabilityIn, probabilityInBy, probabilityIn_eq value total _ rest]
      rfl
  | sum, .nested distribution weight :: rest => by
      rw [probabilityIn, probabilityInBy, probability_eq value distribution,
        probabilityIn_eq value total _ rest]

end

/-- The chance of a value as an exact number. -/
def chance (value : Scalar) (distribution : Distribution) : ℚ :=
  probabilityBy (fun n => (n : ℚ)) value distribution

mutual

/-- The scalars that can be reached through alternatives, nested ones too. -/
def values : Distribution → List Scalar
  | .mk alternatives => valuesOf alternatives

def valuesOf : List Alternative → List Scalar
  | [] => []
  | .value scalar _ :: rest => scalar :: valuesOf rest
  | .nested distribution _ :: rest => values distribution ++ valuesOf rest

end

end Distribution

/-! ## Alternatives -/

namespace Alternative

/-- What is left to do when the alternative has been chosen. -/
def sampleBy {m : Type → Type} [Monad m] (draw : Nat → m Nat) : Alternative → ExceptT Fault m Scalar
  | .value scalar _ => pure scalar
  | .nested distribution _ => distribution.sampleBy draw

/-- The chance of a value once the alternative has been chosen. -/
def chance (value : Scalar) : Alternative → ℚ
  | .value scalar _ => if scalar = value then 1 else 0
  | .nested distribution _ => distribution.chance value

def values : Alternative → List Scalar
  | .value scalar _ => [scalar]
  | .nested distribution _ => distribution.values

end Alternative

/-- The scalars that a range offers. -/
def RangeValue.values : RangeValue → List Scalar
  | .scalar value => [value]
  | .collection values => values
  | .nested distribution => distribution.values

namespace Distribution

theorem samplersBy_eq_map {m : Type → Type} [Monad m] (draw : Nat → m Nat) :
    ∀ alternatives : List Alternative, samplersBy draw alternatives =
      alternatives.map (fun alternative => (alternative.weight, alternative.sampleBy draw))
  | [] => rfl
  | .value scalar weight :: rest => by rw [samplersBy, samplersBy_eq_map draw rest]; rfl
  | .nested distribution weight :: rest => by rw [samplersBy, samplersBy_eq_map draw rest]; rfl

theorem probabilityInBy_eq (value : Scalar) (total : ℚ) : ∀ (sum : ℚ)
    (alternatives : List Alternative), probabilityInBy (fun n => (n : ℚ)) value total sum
      alternatives = sum + (alternatives.map (fun alternative =>
        (alternative.weight : ℚ) / total * alternative.chance value)).sum
  | sum, [] => by simp [probabilityInBy]
  | sum, .value scalar weight :: rest => by
      rw [probabilityInBy, probabilityInBy_eq value total _ rest, List.map_cons, List.sum_cons]
      simp [Alternative.weight, Alternative.chance, add_assoc]
  | sum, .nested distribution weight :: rest => by
      rw [probabilityInBy, probabilityInBy_eq value total _ rest, List.map_cons, List.sum_cons]
      simp [Alternative.weight, Alternative.chance, Distribution.chance, add_assoc]

/-- A chance is the mean of those of the alternatives. -/
theorem chance_eq (value : Scalar) (alternatives : List Alternative) :
    chance value (.mk alternatives) = (alternatives.map (fun alternative =>
      (alternative.weight : ℚ) / totalOf alternatives * alternative.chance value)).sum := by
  rw [chance, probabilityBy, probabilityInBy_eq]
  simp

theorem values_eq (alternatives : List Alternative) :
    values (.mk alternatives) = alternatives.flatMap Alternative.values := by
  rw [values]
  induction alternatives with
  | nil => rfl
  | cons first rest ih =>
      cases first with
      | value scalar weight => rw [valuesOf, ih]; rfl
      | nested distribution weight => rw [valuesOf, ih]; rfl

theorem expandRange_values {implied : Nat} {range : ValueRange} {alternatives : List Alternative}
    (expanded : expandRange implied range = .ok alternatives) :
    alternatives.flatMap Alternative.values = range.value.values := by
  obtain ⟨value, bias⟩ := range
  unfold expandRange at expanded
  generalize bias.getD implied = weight at expanded
  by_cases zero : weight = 0
  · simp only [if_pos zero] at expanded
    cases expanded
  · simp only [if_neg zero] at expanded
    cases value with
    | scalar value =>
        cases expanded
        simp [Alternative.values, RangeValue.values]
    | collection values =>
        simp only [rangeAlternatives] at expanded
        split at expanded
        · cases expanded
        · cases expanded
          simp [List.flatMap_map, Alternative.values, RangeValue.values]
    | nested distribution =>
        cases expanded
        simp [Alternative.values, RangeValue.values]

/-- The values of a distribution are those that its ranges offer. -/
theorem build_values {ranges : List ValueRange} {distribution : Distribution}
    (built : build ranges = .ok distribution) :
    distribution.values = ranges.flatMap (fun range => range.value.values) := by
  obtain ⟨-, parts, expanded, made⟩ := build_ok_iff.mp built
  cases made
  rw [values_eq]
  have parted := expanded.imp (fun _ _ => expandRange_values)
  clear expanded built
  induction parted with
  | nil => rfl
  | cons here _ ih => rw [List.flatten_cons, List.flatMap_append, here, ih, List.flatMap_cons]

/-! ## Built distributions -/

/-- Every alternative of a distribution that could be built has weight. -/
theorem build_weights {ranges : List ValueRange} {alternatives : List Alternative}
    (built : build ranges = .ok (.mk alternatives)) :
    ∀ alternative ∈ alternatives, 0 < alternative.weight := by
  obtain ⟨-, parts, expanded, made⟩ := build_ok_iff.mp built
  cases made
  intro alternative member
  obtain ⟨part, listed, inside⟩ := List.mem_flatten.mp member
  obtain ⟨range, _, expanded_range⟩ := Paired.exists_partner expanded part listed
  exact (expandRange_ok expanded_range).positive alternative inside

/-- Induction along the nesting: there are alternatives, each has weight, and what is nested in
them is built and has the property. -/
@[elab_as_elim]
theorem Built.induct {P : (distribution : Distribution) → Built distribution → Prop}
    (step : ∀ (alternatives : List Alternative) (built : Built (.mk alternatives)),
      alternatives ≠ [] → (∀ alternative ∈ alternatives, 0 < alternative.weight) →
      (∀ inner weight, .nested inner weight ∈ alternatives → ∃ inside, P inner inside) →
      P (.mk alternatives) built)
    {distribution : Distribution} (built : Built distribution) : P distribution built := by
  induction built with
  | @of ranges distribution nested built ih =>
      obtain ⟨alternatives⟩ := distribution
      obtain ⟨positive, from_ranges⟩ := build_ok built
      refine step alternatives (.of nested built) ?_ (build_weights built) ?_
      · rintro rfl
        exact Nat.lt_irrefl 0 positive
      · intro inner weight member
        obtain ⟨range, ranged, holds⟩ := from_ranges inner weight member
        exact ⟨nested range ranged inner holds, ih range ranged inner holds⟩

/-! ## Choosing by a number -/

/-- The weights of some entries together. -/
def weightOf {γ : Type} (entries : List (Nat × γ)) : Nat :=
  (entries.map Prod.fst).sum

theorem choose_cons {γ : Type} {rest : List (Nat × γ)} (filled : rest ≠ []) (c weight : Nat)
    (entry : γ) : choose c ((weight, entry) :: rest) =
      if c < weight then some entry else choose (c - weight) rest := by
  cases rest with
  | nil => exact absurd rfl filled
  | cons second others => rw [choose]; simp

/-- A number below the total never falls back on the last entry. -/
theorem choose_below {γ : Type} {rest : List (Nat × γ)} {c weight : Nat} (entry : γ)
    (below : c < weight + weightOf rest) : choose c ((weight, entry) :: rest) =
      if c < weight then some entry else choose (c - weight) rest := by
  cases rest with
  | nil =>
      have first : c < weight := by simpa [weightOf] using below
      rw [if_pos first]
      rfl
  | cons second others => exact choose_cons (List.cons_ne_nil _ _) c weight entry

/-- Of the numbers below the total as many lead to an entry as it has weight. -/
theorem sum_choose {γ K : Type} [AddCommMonoid K] (f : Option γ → K)
    (entries : List (Nat × γ)) : ∑ c ∈ Finset.range (weightOf entries), f (choose c entries) =
      (entries.map (fun entry => entry.1 • f (some entry.2))).sum := by
  induction entries with
  | nil => simp [weightOf]
  | cons first rest ih =>
      obtain ⟨weight, entry⟩ := first
      have here : ∀ c ∈ Finset.range weight,
          f (choose c ((weight, entry) :: rest)) = f (some entry) := by
        intro c inside
        have low := Finset.mem_range.mp inside
        rw [choose_below entry (by omega), if_pos low]
      have there : ∀ c ∈ Finset.range (weightOf rest),
          f (choose (weight + c) ((weight, entry) :: rest)) = f (choose c rest) := by
        intro c inside
        have low := Finset.mem_range.mp inside
        rw [choose_below entry (by omega), if_neg (by omega), Nat.add_sub_cancel_left]
      have total : weightOf ((weight, entry) :: rest) = weight + weightOf rest := by
        simp [weightOf]
      rw [total, Finset.sum_range_add, Finset.sum_congr rfl here, Finset.sum_congr rfl there, ih]
      simp

theorem choose_map {γ δ : Type} (g : γ → δ) (entries : List (Nat × γ)) : ∀ c : Nat,
    choose c (entries.map (fun entry => (entry.1, g entry.2))) = (choose c entries).map g := by
  induction entries with
  | nil => intro c; rfl
  | cons first rest ih =>
      intro c
      obtain ⟨weight, entry⟩ := first
      cases rest with
      | nil => rfl
      | cons second others =>
          rw [List.map_cons, choose_cons (by simp), choose_cons (by simp), ih]
          split <;> rfl

/-! ## Alternatives by their numbers -/

/-- The number of the alternative that a draw leads to. -/
def chosen (distribution : Distribution) (c : Nat) : Option Nat :=
  choose c (distribution.alternatives.zipIdx.map (fun entry => (entry.1.weight, entry.2)))

/-- The weights of the first alternatives together. -/
def cumulated (distribution : Distribution) (count : Nat) : Nat :=
  totalOf (distribution.alternatives.take count)

theorem totalOf_eq_sum (alternatives : List Alternative) :
    totalOf alternatives = (alternatives.map Alternative.weight).sum := rfl

theorem totalOf_cons (first : Alternative) (rest : List Alternative) :
    totalOf (first :: rest) = first.weight + totalOf rest := rfl

theorem totalOf_append (first second : List Alternative) :
    totalOf (first ++ second) = totalOf first + totalOf second := by
  simp only [totalOf_eq_sum, List.map_append, List.sum_append]

theorem totalOf_cast (alternatives : List Alternative) : (totalOf alternatives : ℚ) =
    (alternatives.map (fun alternative => (alternative.weight : ℚ))).sum := by
  rw [totalOf_eq_sum, Nat.cast_list_sum, List.map_map]
  rfl

theorem weightOf_numbered (alternatives : List Alternative) (start : Nat) :
    weightOf ((alternatives.zipIdx start).map (fun entry => (entry.1.weight, entry.2))) =
      totalOf alternatives := by
  have weights : (alternatives.zipIdx start).map (Alternative.weight ∘ Prod.fst) =
      alternatives.map Alternative.weight := by
    rw [← List.map_map, List.zipIdx_map_fst]
  rw [totalOf_eq_sum, ← weights, weightOf, List.map_map]
  rfl

theorem chosen_cons {first : Alternative} {rest : List Alternative} {c : Nat}
    (below : c < totalOf (first :: rest)) : chosen (.mk (first :: rest)) c =
      if c < first.weight then some 0 else (chosen (.mk rest) (c - first.weight)).map (· + 1) := by
  have shifted : (rest.zipIdx 1).map (fun entry => (entry.1.weight, entry.2)) =
      (rest.zipIdx.map (fun entry => (entry.1.weight, entry.2))).map
        (fun entry => (entry.1, entry.2 + 1)) := by
    rw [List.zipIdx_succ]
    simp [Function.comp_def]
  rw [totalOf_cons, ← weightOf_numbered rest 1] at below
  simp only [chosen, alternatives, List.zipIdx_cons, List.map_cons]
  rw [choose_below 0 below, shifted, choose_map (· + 1)]

/-- A draw below the total leads to the first alternative whose weight, with those before it,
exceeds the draw. -/
theorem chosen_eq_iff (alternatives : List Alternative) : ∀ {c : Nat}, c < totalOf alternatives →
    ∀ index, chosen (.mk alternatives) c = some index ↔
      cumulated (.mk alternatives) index ≤ c ∧ c < cumulated (.mk alternatives) (index + 1) := by
  induction alternatives with
  | nil => intro c below; exact absurd below (Nat.not_lt_zero c)
  | cons first rest ih =>
      intro c below index
      rw [chosen_cons below]
      rw [totalOf_cons] at below
      by_cases here : c < first.weight
      · cases index with
        | zero => simp [here, cumulated, totalOf, Distribution.alternatives]
        | succ index =>
            simp [here, cumulated, totalOf_cons, Distribution.alternatives]
            omega
      · rw [if_neg here]
        cases index with
        | zero =>
            have low : first.weight + totalOf [] ≤ c := Nat.le_of_not_lt here
            simp [cumulated, totalOf_cons, Distribution.alternatives, low]
        | succ index =>
            have later := ih (c := c - first.weight) (by omega) index
            simp only [cumulated, Distribution.alternatives, List.take_succ_cons,
              totalOf_cons] at later ⊢
            rw [Option.map_eq_some_iff]
            constructor
            · rintro ⟨place, leads, next⟩
              obtain rfl : place = index := Nat.succ.inj next
              have between := later.mp leads
              omega
            · rintro ⟨above, under⟩
              exact ⟨index, later.mpr (by omega), rfl⟩

theorem cumulated_succ {alternatives : List Alternative} {index : Nat} {alternative : Alternative}
    (there : alternatives[index]? = some alternative) :
    cumulated (.mk alternatives) (index + 1) =
      cumulated (.mk alternatives) index + alternative.weight := by
  simp only [cumulated, Distribution.alternatives, List.take_add_one, there, totalOf_append]
  rfl

theorem cumulated_le (alternatives : List Alternative) (count : Nat) :
    cumulated (.mk alternatives) count ≤ totalOf alternatives := by
  have cut := totalOf_append (alternatives.take count) (alternatives.drop count)
  rw [List.take_append_drop] at cut
  rw [cut]
  exact Nat.le_add_right _ _

/-- Of the draws below the total as many lead to an alternative as it has weight. -/
theorem card_chosen {alternatives : List Alternative} {index : Nat} {alternative : Alternative}
    (there : alternatives[index]? = some alternative) :
    ((Finset.range (totalOf alternatives)).filter
      (fun c => chosen (.mk alternatives) c = some index)).card = alternative.weight := by
  have stretch : (Finset.range (totalOf alternatives)).filter
      (fun c => chosen (.mk alternatives) c = some index) =
        Finset.Ico (cumulated (.mk alternatives) index)
          (cumulated (.mk alternatives) (index + 1)) := by
    ext c
    simp only [Finset.mem_filter, Finset.mem_range, Finset.mem_Ico]
    constructor
    · rintro ⟨below, leads⟩
      exact (chosen_eq_iff alternatives below index).mp leads
    · rintro ⟨above, under⟩
      have below := lt_of_lt_of_le under (cumulated_le alternatives (index + 1))
      exact ⟨below, (chosen_eq_iff alternatives below index).mpr ⟨above, under⟩⟩
  rw [stretch, Nat.card_Ico, cumulated_succ there, Nat.add_sub_cancel_left]

/-- What a draw leads to is what the sampler goes on with. -/
theorem exists_chosen {m : Type → Type} [Monad m] (draw : Nat → m Nat)
    {alternatives : List Alternative} (filled : alternatives ≠ []) (c : Nat) :
    ∃ index alternative, chosen (.mk alternatives) c = some index ∧
      alternatives[index]? = some alternative ∧
      choose c (samplersBy draw alternatives) = some (alternative.sampleBy draw) := by
  -- both choose among the same entries, one looks at the number and the other at the alternative
  have entries : alternatives.zipIdx.map (fun entry => (entry.1.weight, entry)) ≠ [] := by
    simpa using filled
  obtain ⟨⟨weight, alternative, index⟩, member, leads⟩ := choose_mem entries c
  have number := choose_map Prod.snd
    (alternatives.zipIdx.map (fun entry => (entry.1.weight, entry))) c
  have goes_on := choose_map (fun entry : Alternative × Nat => entry.1.sampleBy draw)
    (alternatives.zipIdx.map (fun entry => (entry.1.weight, entry))) c
  rw [leads, List.map_map] at number goes_on
  refine ⟨index, alternative, number, ?_, ?_⟩
  · obtain ⟨⟨_, _⟩, listed, same⟩ := List.mem_map.mp member
    cases same
    exact List.mem_zipIdx_iff_getElem?.mp listed
  · refine Eq.trans ?_ goes_on
    rw [samplersBy_eq_map]
    congr 1
    conv_lhs => rw [← List.zipIdx_map_fst 0 alternatives, List.map_map]
    rfl

/-! ## Sampling from a source -/

theorem weighted_lt {total : Nat} (positive : 0 < total) :
    Draw.Always (Draw.weighted total) (· < total) :=
  Draw.scaled_lt Draw.long_lt positive _ _

theorem Built.total_pos {distribution : Distribution} (built : Built distribution) :
    0 < distribution.total := by
  cases built with
  | of nested made =>
      obtain ⟨alternatives⟩ := distribution
      exact (build_ok made).1

/-- A number is drawn and the alternative that it leads to is gone on with. -/
theorem sample_run {alternatives : List Alternative} (filled : alternatives ≠ [])
    (positive : 0 < totalOf alternatives) (random : Random) : ∃ index alternative,
      chosen (.mk alternatives) (Draw.weighted (totalOf alternatives) random).1 = some index ∧
      alternatives[index]? = some alternative ∧
      sample (.mk alternatives) random = alternative.sampleBy Draw.weighted
        (Draw.weighted (totalOf alternatives) random).2 := by
  obtain ⟨index, alternative, leads, there, goes_on⟩ := exists_chosen Draw.weighted filled
    (Draw.weighted (totalOf alternatives) random).1
  refine ⟨index, alternative, leads, there, ?_⟩
  rw [sample_eq, sampleBy, if_neg (Nat.pos_iff_ne_zero.mp positive), draw_bind, goes_on,
    Option.getD_some]

/-- Sampling a built distribution always yields one of its values. -/
theorem Built.sample_mem {distribution : Distribution} (built : Built distribution) :
    ∀ random, ∃ value after, distribution.sample random = (.ok value, after) ∧
      value ∈ distribution.values := by
  induction built using Built.induct with
  | step alternatives built filled _ nested =>
      intro random
      obtain ⟨index, alternative, _, there, goes_on⟩ := sample_run filled built.total_pos random
      have member := List.mem_of_getElem? there
      rw [goes_on, values_eq]
      cases alternative with
      | value scalar weight =>
          refine ⟨scalar, _, rfl, List.mem_flatMap.mpr ⟨_, member, ?_⟩⟩
          simp [Alternative.values]
      | nested inner weight =>
          obtain ⟨_, samples⟩ := nested inner weight member
          obtain ⟨value, after, run, inside⟩ :=
            samples (Draw.weighted (totalOf alternatives) random).2
          rw [sample_eq] at run
          exact ⟨value, after, run, List.mem_flatMap.mpr ⟨_, member, inside⟩⟩

/-! ## Sampling with uniform draws -/

/-- Every number below the total with the same chance. -/
noncomputable def uniformBelow (total : Nat) : PMF Nat :=
  if positive : 0 < total then
    PMF.uniformOfFinset (Finset.range total) (Finset.nonempty_range_iff.mpr positive.ne')
  else PMF.pure 0

/-- The chances of what sampling comes to when every draw is uniform. -/
noncomputable def law (distribution : Distribution) : PMF (Except Fault Scalar) :=
  (sampleBy uniformBelow distribution).run

theorem uniformBelow_apply {total : Nat} (positive : 0 < total) (c : Nat) :
    uniformBelow total c = if c ∈ Finset.range total then (total : ENNReal)⁻¹ else 0 := by
  rw [uniformBelow, dif_pos positive, PMF.uniformOfFinset_apply, Finset.card_range]
  by_cases member : c ∈ Finset.range total <;> simp only [member, if_true, if_false]

/-- A uniform draw takes the mean of what comes next. -/
theorem bind_uniformBelow {β : Type} {total : Nat} (positive : 0 < total) (next : Nat → PMF β)
    (result : β) : ((uniformBelow total).bind next result).toReal =
      (∑ c ∈ Finset.range total, (next c result).toReal) / total := by
  have outside : ∀ c ∉ Finset.range total, uniformBelow total c * next c result = 0 := by
    intro c member
    rw [uniformBelow_apply positive, if_neg member, zero_mul]
  have finite : ∀ c ∈ Finset.range total, uniformBelow total c * next c result ≠ ⊤ := fun c _ =>
    ENNReal.mul_ne_top (PMF.apply_ne_top _ _) (PMF.apply_ne_top _ _)
  rw [PMF.bind_apply, tsum_eq_sum outside, ENNReal.toReal_sum finite, Finset.sum_div]
  refine Finset.sum_congr rfl (fun c member => ?_)
  rw [uniformBelow_apply positive, if_pos member, ENNReal.toReal_mul, ENNReal.toReal_inv,
    ENNReal.toReal_natCast, inv_mul_eq_div]

/-- The law of a distribution is the mean of those of its alternatives. -/
theorem law_eq {alternatives : List Alternative} (positive : 0 < totalOf alternatives)
    (outcome : Except Fault Scalar) : (law (.mk alternatives) outcome).toReal =
      (alternatives.map (fun alternative => (alternative.weight : ℝ) / totalOf alternatives *
        ((alternative.sampleBy uniformBelow).run outcome).toReal)).sum := by
  have runs : law (.mk alternatives) = (uniformBelow (totalOf alternatives)).bind (fun c =>
      ((choose c (samplersBy uniformBelow alternatives)).getD
        (throw (Fault.of .malformedDistribution))).run) := by
    rw [law, sampleBy, if_neg (Nat.pos_iff_ne_zero.mp positive)]
    exact ExceptT.run_bind_lift _ _
  have total : totalOf alternatives = weightOf (samplersBy uniformBelow alternatives) := by
    rw [samplersBy_eq_map, weightOf, List.map_map]
    rfl
  have counted := sum_choose (fun sampler : Option (ExceptT Fault PMF Scalar) =>
    ((sampler.getD (throw (Fault.of .malformedDistribution))).run outcome).toReal)
    (samplersBy uniformBelow alternatives)
  rw [← total, samplersBy_eq_map, List.map_map] at counted
  rw [runs, bind_uniformBelow positive, samplersBy_eq_map, counted, div_eq_inv_mul,
    ← List.sum_map_mul_left]
  simp [div_eq_inv_mul, mul_assoc]

theorem pure_law (scalar value : Scalar) :
    ((pure scalar : ExceptT Fault PMF Scalar).run (.ok value)).toReal =
      if scalar = value then 1 else 0 := by
  rw [ExceptT.run_pure]
  change ((PMF.pure (Except.ok scalar)) (Except.ok value)).toReal = _
  rw [PMF.pure_apply]
  by_cases same : scalar = value
  · simp [same]
  · simp [same, Ne.symm same]

/-- With uniform draws the probability that sampling yields a value is the exact chance. -/
theorem Built.law_eq_chance {distribution : Distribution} (built : Built distribution)
    (value : Scalar) : (law distribution (.ok value)).toReal = (chance value distribution : ℝ) := by
  induction built using Built.induct with
  | step alternatives built _ _ nested =>
      have positive : 0 < totalOf alternatives := built.total_pos
      rw [law_eq positive, chance_eq, Rat.cast_list_sum, List.map_map]
      congr 1
      refine List.map_congr_left (fun alternative member => ?_)
      cases alternative with
      | value scalar weight =>
          simp only [Alternative.sampleBy, pure_law, Function.comp_apply, Alternative.chance]
          push_cast
          by_cases same : scalar = value <;> simp [same, Alternative.weight]
      | nested inner weight =>
          obtain ⟨_, follows⟩ := nested inner weight member
          simp only [Function.comp_apply, Alternative.chance]
          push_cast
          rw [← follows]
          rfl

/-! ## Exact chances -/

/-- The shares of the alternatives together. -/
theorem sum_shares {alternatives : List Alternative} (positive : 0 < totalOf alternatives) :
    (alternatives.map (fun alternative =>
      (alternative.weight : ℚ) / totalOf alternatives)).sum = 1 := by
  simp only [div_eq_mul_inv]
  rw [List.sum_map_mul_right, ← totalOf_cast]
  exact mul_inv_cancel₀ (Nat.cast_ne_zero.mpr positive.ne')

/-- Where every alternative spreads one over the scalars, their mean does. -/
theorem sum_mean (scalars : Finset Scalar) (total : ℚ) (alternatives : List Alternative)
    (each : ∀ alternative ∈ alternatives, ∑ value ∈ scalars, alternative.chance value = 1) :
    ∑ value ∈ scalars, (alternatives.map (fun alternative =>
        (alternative.weight : ℚ) / total * alternative.chance value)).sum =
      (alternatives.map (fun alternative => (alternative.weight : ℚ) / total)).sum := by
  induction alternatives with
  | nil => simp
  | cons first rest ih =>
      have later := ih (fun alternative member => each alternative (List.mem_cons_of_mem _ member))
      simp only [List.map_cons, List.sum_cons]
      rw [Finset.sum_add_distrib, later, ← Finset.mul_sum, each first List.mem_cons_self, mul_one]

/-- Chances add up to one over any scalars that hold all values. -/
theorem Built.sum_chance {distribution : Distribution} (built : Built distribution) :
    ∀ scalars : Finset Scalar, (∀ value ∈ distribution.values, value ∈ scalars) →
      ∑ value ∈ scalars, chance value distribution = 1 := by
  induction built using Built.induct with
  | step alternatives built _ _ nested =>
      intro scalars all
      rw [values_eq] at all
      have each : ∀ alternative ∈ alternatives,
          ∑ value ∈ scalars, alternative.chance value = 1 := by
        intro alternative member
        have inside : ∀ value ∈ alternative.values, value ∈ scalars := fun value held =>
          all value (List.mem_flatMap.mpr ⟨alternative, member, held⟩)
        cases alternative with
        | value scalar weight =>
            have listed := inside scalar (by simp [Alternative.values])
            simp [Alternative.chance, listed]
        | nested inner weight =>
            obtain ⟨_, sums⟩ := nested inner weight member
            exact sums scalars inside
      simp only [chance_eq]
      rw [sum_mean scalars _ alternatives each]
      exact sum_shares built.total_pos

/-- A sum of numbers that are not negative is positive if one of them is. -/
theorem sum_pos_iff {γ : Type} {items : List γ} {number : γ → ℚ}
    (nonneg : ∀ item ∈ items, 0 ≤ number item) :
    0 ≤ (items.map number).sum ∧
      (0 < (items.map number).sum ↔ ∃ item ∈ items, 0 < number item) := by
  induction items with
  | nil => simp
  | cons first rest ih =>
      obtain ⟨here, there⟩ := List.forall_mem_cons.mp nonneg
      obtain ⟨low, later⟩ := ih there
      rw [List.map_cons, List.sum_cons, List.exists_mem_cons_iff, ← later]
      refine ⟨add_nonneg here low, ?_⟩
      rcases here.eq_or_lt with zero | positive
      · simp [← zero]
      · simp [positive, add_pos_of_pos_of_nonneg positive low]

theorem chance_value_iff (value scalar : Scalar) (weight : Nat) :
    0 ≤ (Alternative.value scalar weight).chance value ∧
      (0 < (Alternative.value scalar weight).chance value ↔
        value ∈ (Alternative.value scalar weight).values) := by
  by_cases same : scalar = value
  · simp [Alternative.chance, Alternative.values, same]
  · simp [Alternative.chance, Alternative.values, same, Ne.symm same]

/-- No chance is negative, and exactly the values have one. -/
theorem Built.chance_values {distribution : Distribution} (built : Built distribution)
    (value : Scalar) : 0 ≤ chance value distribution ∧
      (0 < chance value distribution ↔ value ∈ distribution.values) := by
  induction built using Built.induct with
  | step alternatives built _ weights nested =>
      have each : ∀ alternative ∈ alternatives, 0 ≤ alternative.chance value ∧
          (0 < alternative.chance value ↔ value ∈ alternative.values) := by
        intro alternative member
        cases alternative with
        | value scalar weight => exact chance_value_iff value scalar weight
        | nested inner weight =>
            obtain ⟨_, holds⟩ := nested inner weight member
            exact holds
      have share : ∀ alternative ∈ alternatives,
          (0 : ℚ) < (alternative.weight : ℚ) / totalOf alternatives := fun alternative member =>
        div_pos (Nat.cast_pos.mpr (weights alternative member)) (Nat.cast_pos.mpr built.total_pos)
      obtain ⟨low, reach⟩ := sum_pos_iff (fun alternative member =>
        mul_nonneg (share alternative member).le (each alternative member).1)
      rw [chance_eq, values_eq, List.mem_flatMap]
      refine ⟨low, reach.trans ?_⟩
      refine exists_congr (fun alternative => and_congr_right (fun member => ?_))
      rw [mul_pos_iff_of_pos_left (share alternative member)]
      exact (each alternative member).2

/-! ## Agreement -/

/-- Sampling a distribution agrees with the probabilities that are told of it. -/
structure Agrees (distribution : Distribution) : Prop where
  /-- Sampling always yields one of the values. -/
  samples : ∀ random, ∃ value after,
    distribution.sample random = (.ok value, after) ∧ value ∈ distribution.values
  /-- The values are those of the ranges, with those of nested distributions. -/
  ranged : ∀ ranges, build ranges = .ok distribution →
    distribution.values = ranges.flatMap (fun range => range.value.values)
  /-- One number below the total is drawn, and the alternative that it leads to is sampled. -/
  draws : ∀ random, (Draw.weighted distribution.total random).1 < distribution.total ∧
    ∃ index alternative,
      chosen distribution (Draw.weighted distribution.total random).1 = some index ∧
      distribution.alternatives[index]? = some alternative ∧
      distribution.sample random =
        alternative.sampleBy Draw.weighted (Draw.weighted distribution.total random).2
  /-- It is the first one whose weight, with those before it, exceeds the number. -/
  first : ∀ c < distribution.total, ∀ index, chosen distribution c = some index ↔
    cumulated distribution index ≤ c ∧ c < cumulated distribution (index + 1)
  /-- As many numbers lead to an alternative as it has weight, and some do. -/
  weighs : ∀ index alternative, distribution.alternatives[index]? = some alternative →
    0 < alternative.weight ∧ ((Finset.range distribution.total).filter
      (fun c => chosen distribution c = some index)).card = alternative.weight
  /-- What `law` and `chance` are of is what is sampled and told. -/
  same : distribution.sample = sampleBy Draw.weighted distribution ∧
    ∀ value, probability value distribution = probabilityBy Float.ofNat value distribution
  /-- With uniform draws a value is sampled with its exact chance. -/
  exact : ∀ value, (law distribution (.ok value)).toReal = (chance value distribution : ℝ)
  /-- Exactly the values have a chance. -/
  positive : ∀ value, 0 < chance value distribution ↔ value ∈ distribution.values
  /-- Their chances add up to one. -/
  whole : ∑ value ∈ distribution.values.toFinset, chance value distribution = 1

theorem Built.agrees {distribution : Distribution} (built : Built distribution) :
    Agrees distribution where
  samples := built.sample_mem
  ranged := fun _ => build_values
  draws := by
    intro random
    refine ⟨weighted_lt built.total_pos random, ?_⟩
    cases built using Built.induct with
    | step alternatives built filled _ _ => exact sample_run filled built.total_pos random
  first := by
    obtain ⟨alternatives⟩ := distribution
    exact fun _ below index => chosen_eq_iff alternatives below index
  weighs := by
    intro index alternative there
    cases built using Built.induct with
    | step alternatives _ _ weights _ =>
        exact ⟨weights alternative (List.mem_of_getElem? there), card_chosen there⟩
  same := ⟨sample_eq distribution, fun value => probability_eq value distribution⟩
  exact := built.law_eq_chance
  positive := fun value => (built.chance_values value).2
  whole := built.sum_chance _ (fun _ => List.mem_toFinset.mpr)

/-- One of two numbers, the second three times as often. -/
def uneven : Distribution :=
  .mk [.value (.integer 1) 1, .value (.integer 2) 3]

/-- A nested distribution and two numbers, each as often; one number is in both. -/
def overlapping : Distribution :=
  .mk [.nested uneven 2, .value (.integer 2) 2, .value (.integer 3) 2]

theorem overlapping_built : Built overlapping := by
  have inner : Built uneven := by
    refine @Built.of [⟨.scalar (.integer 1), some 1⟩, ⟨.scalar (.integer 2), some 3⟩] _ ?_ rfl
    simp
  refine @Built.of [⟨.nested uneven, none⟩, ⟨.collection [.integer 2, .integer 3], some 2⟩] _ ?_ rfl
  simpa using inner

theorem overlapping_agrees : Agrees overlapping ∧
    chance (.integer 2) overlapping = 7 / 12 ∧
    (law overlapping (.ok (.integer 2))).toReal = 7 / 12 := by
  have agrees := Built.agrees overlapping_built
  have seven : chance (.integer 2) overlapping = 7 / 12 := by
    norm_num [chance, overlapping, uneven, probabilityBy, probabilityInBy, totalOf,
      Alternative.weight]
  refine ⟨agrees, seven, ?_⟩
  rw [agrees.exact, seven]
  norm_num

end Distribution
end TestProgram
