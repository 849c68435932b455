/-
# TestProgram.Proofs.BuiltWeights -- the weights of a distribution that has been built

Building a distribution can be said without its checks: each range stands for some alternatives
(`RangeValue.alternatives`), with its bias as their weight or, where it has none, the share that
all such ranges get.  The share is the mean of the biases given, rounded up (`isLeast_share`), so
it lies between two of them and is itself a weight: neither the floor of one nor the greatest
weight ever cut it off (`impliedWeight_eq`).

`build_establishes` says when the building succeeds, and what has been built then.  The numbers
are unbounded here, but they need not be: up to 2 ^ 32 ranges, the sum behind the mean has room in
a word of 64 bits (`sum_givenBiases_lt`).
-/
import TestProgram.Proofs.Unfoldings
import Mathlib.Algebra.Order.BigOperators.Group.List
import Mathlib.Algebra.Order.Field.Basic
import Mathlib.Algebra.Order.Floor.Div
import Mathlib.Data.Rat.Cast.Order
import Mathlib.Order.Bounds.Basic

namespace TestProgram

set_option autoImplicit false

/-- The alternatives that a range stands for, with this weight each: one for a scalar, one for
every member of a collection, and one for a distribution as it is. -/
def RangeValue.alternatives (weight : Nat) : RangeValue → List Alternative
  | .scalar value => [.value value weight]
  | .collection values => values.map (fun value => .value value weight)
  | .nested distribution => [.nested distribution weight]

namespace Distribution

/-- The biases given, one for each range that has one. -/
def givenBiases (ranges : List ValueRange) : List Nat :=
  ranges.filterMap ValueRange.bias

/-- The mean of some numbers as an exact number. -/
def mean (numbers : List Nat) : ℚ :=
  (numbers.sum : ℚ) / numbers.length

/-! ## The share of ranges without a bias -/

section Share

variable {biases : List Nat}

/-- The least number that is not below the mean comes from dividing and rounding up. -/
theorem isLeast_mean (some_given : biases ≠ []) :
    IsLeast {n : Nat | mean biases ≤ n} (biases.sum ⌈/⌉ biases.length) := by
  have count : 0 < biases.length := List.length_pos_iff.mpr some_given
  have not_below : ∀ n : Nat, mean biases ≤ n ↔ biases.sum ⌈/⌉ biases.length ≤ n := by
    intro n
    rw [ceilDiv_le_iff_le_mul count, mean, div_le_iff₀' (by exact_mod_cast count)]
    exact_mod_cast Iff.rfl
  exact ⟨(not_below _).mpr le_rfl, fun n above => (not_below n).mp above⟩

/-- Rounded up, the mean lies between two of the numbers. -/
theorem mean_between (some_given : biases ≠ []) :
    (∃ least ∈ biases, least ≤ biases.sum ⌈/⌉ biases.length) ∧
      ∃ greatest ∈ biases, biases.sum ⌈/⌉ biases.length ≤ greatest := by
  have count : 0 < biases.length := List.length_pos_iff.mpr some_given
  have rounds : ∀ n, biases.sum ⌈/⌉ biases.length ≤ n ↔ biases.sum ≤ biases.length * n :=
    fun n => ceilDiv_le_iff_le_mul count
  generalize biases.sum ⌈/⌉ biases.length = share at rounds
  have enough : biases.sum ≤ biases.length * share := (rounds share).mp le_rfl
  constructor
  · by_contra none_below
    have all_above : ∀ bias ∈ biases, share + 1 ≤ bias := fun bias member =>
      Nat.lt_of_not_le (fun below => none_below ⟨bias, member, below⟩)
    have too_much := List.card_nsmul_le_sum biases (share + 1) all_above
    rw [smul_eq_mul] at too_much
    have := Nat.le_of_mul_le_mul_left (too_much.trans enough) count
    omega
  · by_contra none_above
    have all_below : ∀ bias ∈ biases, bias < share := fun bias member =>
      Nat.lt_of_not_le (fun above => none_above ⟨bias, member, above⟩)
    have too_little := List.sum_le_card_nsmul biases (share - 1)
      (fun bias member => Nat.le_sub_one_of_lt (all_below bias member))
    rw [smul_eq_mul, ← rounds] at too_little
    obtain ⟨bias, member⟩ := List.exists_mem_of_ne_nil _ some_given
    have := all_below bias member
    omega

theorem impliedWeight_rounds (ranges : List ValueRange) :
    impliedWeight ranges =
      if (givenBiases ranges).isEmpty then 1
      else max 1 (min maxWeight
        (((givenBiases ranges).sum + (givenBiases ranges).length - 1) /
          (givenBiases ranges).length)) := rfl

/-- The share of ranges without a bias is the mean rounded up: neither bound cuts it off. -/
theorem impliedWeight_eq {ranges : List ValueRange} (some_given : givenBiases ranges ≠ [])
    (positive : ∀ bias ∈ givenBiases ranges, 0 < bias)
    (bounded : ∀ bias ∈ givenBiases ranges, bias ≤ maxWeight) :
    impliedWeight ranges = (givenBiases ranges).sum ⌈/⌉ (givenBiases ranges).length := by
  obtain ⟨⟨least, low, above⟩, greatest, high, below⟩ := mean_between some_given
  have at_least := positive least low
  have at_most := bounded greatest high
  rw [Nat.ceilDiv_eq_add_pred_div] at above below ⊢
  have filled : ¬ (givenBiases ranges).isEmpty = true := mt List.isEmpty_iff.mp some_given
  rw [impliedWeight_rounds, if_neg filled]
  omega

theorem impliedWeight_of_none {ranges : List ValueRange} (none_given : givenBiases ranges = []) :
    impliedWeight ranges = 1 := by
  rw [impliedWeight_rounds, if_pos (List.isEmpty_iff.mpr none_given)]

theorem impliedWeight_le (ranges : List ValueRange) : impliedWeight ranges ≤ maxWeight := by
  have one : 1 ≤ maxWeight := by decide
  rw [impliedWeight_rounds]
  split <;> omega

/-- The share is the mean of the biases rounded up, between two of them, or 1 without any. -/
theorem share_spec {ranges : List ValueRange}
    (words : ∀ range ∈ ranges, ∀ bias, range.bias = some bias → bias ≤ maxWeight)
    (positive : ∀ range ∈ ranges, range.bias ≠ some 0) :
    (givenBiases ranges = [] ∧ impliedWeight ranges = 1) ∨
      (IsLeast {n : Nat | mean (givenBiases ranges) ≤ n} (impliedWeight ranges) ∧
        (∃ least ∈ givenBiases ranges, least ≤ impliedWeight ranges) ∧
        ∃ greatest ∈ givenBiases ranges, impliedWeight ranges ≤ greatest) := by
  by_cases none_given : givenBiases ranges = []
  · exact .inl ⟨none_given, impliedWeight_of_none none_given⟩
  · have of_range : ∀ bias ∈ givenBiases ranges, 0 < bias ∧ bias ≤ maxWeight := by
      intro bias member
      obtain ⟨range, ranged, given⟩ := List.mem_filterMap.mp member
      refine ⟨Nat.pos_of_ne_zero ?_, words range ranged bias given⟩
      rintro rfl
      exact positive range ranged given
    rw [impliedWeight_eq none_given (fun bias member => (of_range bias member).1)
      (fun bias member => (of_range bias member).2)]
    exact .inr ⟨isLeast_mean none_given, mean_between none_given⟩

/-- In the order of the ranges lies nothing that the share depends on. -/
theorem impliedWeight_perm {ranges others : List ValueRange} (permuted : others.Perm ranges) :
    impliedWeight others = impliedWeight ranges := by
  have given : (givenBiases others).Perm (givenBiases ranges) :=
    permuted.filterMap ValueRange.bias
  rw [impliedWeight_rounds, impliedWeight_rounds, given.sum_eq, given.length_eq, given.isEmpty_eq]

/-- With at most as many ranges as there are weights the sum of the biases is a word of 64 bits. -/
theorem sum_givenBiases_lt {ranges : List ValueRange} (few : ranges.length ≤ maxWeight + 1)
    (words : ∀ range ∈ ranges, ∀ bias, range.bias = some bias → bias ≤ maxWeight) :
    (givenBiases ranges).sum < MachineWord.long := by
  have bounded : ∀ bias ∈ givenBiases ranges, bias ≤ maxWeight := by
    intro bias member
    obtain ⟨range, ranged, given⟩ := List.mem_filterMap.mp member
    exact words range ranged bias given
  have counted : (givenBiases ranges).length ≤ ranges.length := List.length_filterMap_le _ _
  have limited := List.sum_le_card_nsmul (givenBiases ranges) maxWeight bounded
  rw [smul_eq_mul] at limited
  have room := Nat.mul_le_mul_right maxWeight (counted.trans few)
  have short : (maxWeight + 1) * maxWeight < MachineWord.long := by decide
  omega

end Share

/-! ## Alternatives -/

theorem rangeAlternatives_ok_iff {weight : Nat} {value : RangeValue}
    {alternatives : List Alternative} :
    rangeAlternatives weight value = .ok alternatives ↔
      value ≠ .collection [] ∧ alternatives = value.alternatives weight := by
  cases value with
  | collection values =>
      cases values with
      | nil => simp [rangeAlternatives]
      | cons first rest => simp [rangeAlternatives, RangeValue.alternatives, eq_comm]
  | scalar value => simp [rangeAlternatives, RangeValue.alternatives, eq_comm]
  | nested distribution => simp [rangeAlternatives, RangeValue.alternatives, eq_comm]

theorem expandRange_alternatives {implied : Nat} {range : ValueRange}
    {alternatives : List Alternative} (expanded : expandRange implied range = .ok alternatives) :
    alternatives = range.value.alternatives (range.bias.getD implied) := by
  unfold expandRange at expanded
  dsimp only at expanded
  split at expanded
  · cases expanded
  · exact (rangeAlternatives_ok_iff.mp expanded).2

/-- What has been built are the alternatives of the ranges, one range after another. -/
theorem build_alternatives {ranges : List ValueRange} {distribution : Distribution}
    (built : build ranges = .ok distribution) :
    distribution.alternatives = ranges.flatMap (fun range =>
      range.value.alternatives (range.bias.getD (impliedWeight ranges))) := by
  obtain ⟨-, parts, expanded, rfl⟩ := build_ok_iff.mp built
  have each := Paired.map_eq (f := fun range : ValueRange =>
      range.value.alternatives (range.bias.getD (impliedWeight ranges))) (g := id)
    (expanded.imp (fun _ _ here => expandRange_alternatives here))
  rw [List.flatMap_def, ← each, List.map_id]
  rfl

theorem weight_of_mem_alternatives {value : RangeValue} {weight : Nat} {alternative : Alternative}
    (member : alternative ∈ value.alternatives weight) : alternative.weight = weight := by
  cases value with
  | collection values =>
      obtain ⟨_, _, rfl⟩ := List.mem_map.mp member
      rfl
  | _ =>
      obtain rfl := List.mem_singleton.mp member
      rfl

/-! ## Built distributions -/

/-- Building succeeds if there are ranges, and none without weight or without values.  What is built
are then the alternatives of the ranges in their order, with the biases given and, where none is,
the mean of them rounded up; so every weight is one, and the order of the ranges is the order of
the alternatives and nothing else.  The biases of up to 2 ^ 32 ranges sum up to a word of 64
bits. -/
theorem build_establishes (ranges : List ValueRange)
    (words : ∀ range ∈ ranges, ∀ bias, range.bias = some bias → bias ≤ 0xFFFFFFFF) :
    ((∃ distribution, build ranges = .ok distribution) ↔
      ranges ≠ [] ∧ ∀ range ∈ ranges, range.bias ≠ some 0 ∧ range.value ≠ .collection []) ∧
    (∀ distribution, build ranges = .ok distribution →
      ∃ share : Nat,
        ((givenBiases ranges = [] ∧ share = 1) ∨
          (IsLeast {n : Nat | mean (givenBiases ranges) ≤ n} share ∧
            (∃ least ∈ givenBiases ranges, least ≤ share) ∧
            ∃ greatest ∈ givenBiases ranges, share ≤ greatest)) ∧
        distribution.alternatives =
          ranges.flatMap (fun range => range.value.alternatives (range.bias.getD share)) ∧
        (∀ alternative ∈ distribution.alternatives,
          1 ≤ alternative.weight ∧ alternative.weight ≤ 0xFFFFFFFF) ∧
        ∀ permuted, permuted.Perm ranges → ∃ other, build permuted = .ok other ∧
          other.alternatives.Perm distribution.alternatives) ∧
    (ranges.length ≤ 2 ^ 32 → (givenBiases ranges).sum < 2 ^ 64) := by
  refine ⟨exists_build_iff ranges, fun distribution built => ?_,
    fun few => sum_givenBiases_lt few words⟩
  obtain ⟨filled, proper⟩ := (exists_build_iff ranges).mp ⟨distribution, built⟩
  have made := build_alternatives built
  have spec := share_spec words (fun range member => (proper range member).1)
  refine ⟨impliedWeight ranges, spec, made, fun alternative member => ?_,
    fun permuted same => ?_⟩
  · rw [made] at member
    obtain ⟨range, ranged, inside⟩ := List.mem_flatMap.mp member
    rw [weight_of_mem_alternatives inside]
    cases given : range.bias with
    | some bias =>
        have positive : bias ≠ 0 := fun zero => (proper range ranged).1 (zero ▸ given)
        exact ⟨Nat.one_le_iff_ne_zero.mpr positive, words range ranged bias given⟩
    | none => exact ⟨impliedWeight_pos ranges, impliedWeight_le ranges⟩
  · have proper_too : permuted ≠ [] ∧
        ∀ range ∈ permuted, range.bias ≠ some 0 ∧ range.value ≠ .collection [] :=
      ⟨fun empty => filled (List.nil_perm.mp (empty ▸ same)),
        fun range member => proper range (same.subset member)⟩
    obtain ⟨other, built_too⟩ := (exists_build_iff permuted).mpr proper_too
    refine ⟨other, built_too, ?_⟩
    rw [build_alternatives built_too, made, impliedWeight_perm same]
    exact same.flatMap_right _

/-- Of the biases 6 and 3, the mean is four and a half, and the range without one gets 5. -/
theorem build_establishes_rounding_up :
    let ranges : List ValueRange :=
      [⟨.scalar (.integer 1), some 6⟩, ⟨.scalar (.integer 2), none⟩,
        ⟨.collection [.integer 3, .integer 4], some 3⟩]
    (∀ range ∈ ranges, ∀ bias, range.bias = some bias → bias ≤ 0xFFFFFFFF) ∧
      build ranges = .ok (.mk [.value (.integer 1) 6, .value (.integer 2) 5,
        .value (.integer 3) 3, .value (.integer 4) 3]) ∧
      IsLeast {n : Nat | mean [6, 3] ≤ n} 5 := by
  intro ranges
  have words : ∀ range ∈ ranges, ∀ bias, range.bias = some bias → bias ≤ 0xFFFFFFFF := by
    simp [ranges]
  have built : build ranges = .ok (.mk [.value (.integer 1) 6, .value (.integer 2) 5,
      .value (.integer 3) 3, .value (.integer 4) 3]) := by
    simp only [ranges]
    rfl
  refine ⟨words, built, ?_⟩
  obtain ⟨share, spec, made, _⟩ := (build_establishes ranges words).2.1 _ built
  have five : 5 = share := by simpa [ranges, RangeValue.alternatives, alternatives] using made
  rcases spec with ⟨none_given, _⟩ | ⟨least, _⟩
  · cases none_given
  · exact five ▸ least

end Distribution
end TestProgram
