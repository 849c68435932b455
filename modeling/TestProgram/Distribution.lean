/-
# TestProgram.Distribution -- weighted choices

A distribution is a list of alternatives, each a scalar or a distribution of its
own, with a weight.  It is built from ranges: a scalar is one alternative, every
member of a collection is one, and a nested distribution is one that keeps its own
weights.  A range without a bias takes the mean of the biases given, rounded up.

`build` refuses what could leave an alternative without a chance, so sampling a
built distribution always yields a value.
-/
import TestProgram.Fault
import TestProgram.Random.Basic

namespace TestProgram

set_option autoImplicit false

/-- The largest weight a range can have. -/
def maxWeight : Nat := MachineWord.short - 1

mutual

inductive Distribution
  | mk (alternatives : List Alternative)

inductive Alternative
  | value (scalar : Scalar) (weight : Nat)
  | nested (distribution : Distribution) (weight : Nat)

end

inductive RangeValue
  | scalar (value : Scalar)
  | collection (values : List Scalar)
  | nested (distribution : Distribution)

structure ValueRange where
  value : RangeValue
  bias : Option Nat := none

/-- A range with a bias of its own. -/
def ValueRange.biased (value : RangeValue) (bias : Int) : Except Fault ValueRange :=
  if 0 < bias ∧ bias ≤ maxWeight then .ok { value, bias := some bias.toNat }
  else .error (Fault.of (.biasNotPositive bias))

/-- A range with or without a bias. -/
def ValueRange.of (value : RangeValue) : Option Int → Except Fault ValueRange
  | some bias => ValueRange.biased value bias
  | none => .ok { value }

namespace Alternative

def weight : Alternative → Nat
  | .value _ weight => weight
  | .nested _ weight => weight

end Alternative

namespace Distribution

def alternatives : Distribution → List Alternative
  | .mk alternatives => alternatives

def totalOf (alternatives : List Alternative) : Nat :=
  (alternatives.map Alternative.weight).foldr (· + ·) 0

def total (distribution : Distribution) : Nat :=
  totalOf distribution.alternatives

/-! ## Building -/

/-- The weight of a range without a bias: the mean of the biases given, rounded up. -/
def impliedWeight (ranges : List ValueRange) : Nat :=
  let biases := ranges.filterMap ValueRange.bias
  if biases.isEmpty then 1
  else max 1 (min maxWeight ((biases.foldr (· + ·) 0 + biases.length - 1) / biases.length))

def rangeAlternatives (weight : Nat) : RangeValue → Except Fault (List Alternative)
  | .scalar value => .ok [.value value weight]
  | .collection values =>
      if values.isEmpty then .error (Fault.of .emptyCollection)
      else .ok (values.map (fun value => .value value weight))
  | .nested distribution => .ok [.nested distribution weight]

def expandRange (implied : Nat) (range : ValueRange) : Except Fault (List Alternative) :=
  let weight := range.bias.getD implied
  if weight = 0 then .error (Fault.of .weightNotPositive)
  else rangeAlternatives weight range.value

def build (ranges : List ValueRange) : Except Fault Distribution :=
  if ranges.isEmpty then .error (Fault.of .noRanges)
  else do
    let parts ← ranges.mapM (expandRange (impliedWeight ranges))
    .ok (.mk parts.flatten)

/-! ## Sampling -/

/-- The entry of the first alternative whose weights so far exceed `c`; the last one
when none does. -/
def choose {α : Type} (c : Nat) : List (Nat × α) → Option α
  | [] => none
  | [(_, entry)] => some entry
  | (weight, entry) :: rest => if c < weight then some entry else choose (c - weight) rest

/-- A draw that may turn out to have nothing to draw from. -/
abbrev Sampler := ExceptT Fault Draw

mutual

/-- One value, with a draw at each level that is entered. -/
def sample : Distribution → Sampler Scalar
  | .mk alternatives =>
      if totalOf alternatives = 0 then throw (Fault.of .malformedDistribution)
      else do
        let c ← (Draw.weighted (totalOf alternatives) : Draw Nat)
        (choose c (samplers alternatives)).getD (throw (Fault.of .malformedDistribution))

def samplers : List Alternative → List (Nat × Sampler Scalar)
  | [] => []
  | .value scalar weight :: rest => (weight, pure scalar) :: samplers rest
  | .nested distribution weight :: rest => (weight, sample distribution) :: samplers rest

end

/-! ## Probabilities -/

mutual

/-- The chance of a value, summed over the alternatives in order. -/
def probability (value : Scalar) : Distribution → Float
  | .mk alternatives =>
      probabilityIn value (Float.ofNat (totalOf alternatives)) 0 alternatives

def probabilityIn (value : Scalar) (total sum : Float) : List Alternative → Float
  | [] => sum
  | .value scalar weight :: rest =>
      let share := Float.ofNat weight / total
      probabilityIn value total (sum + (if scalar = value then share else 0)) rest
  | .nested distribution weight :: rest =>
      let share := Float.ofNat weight / total
      probabilityIn value total (sum + share * probability value distribution) rest

end

end Distribution
end TestProgram
