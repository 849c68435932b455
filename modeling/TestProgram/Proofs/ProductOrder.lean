/-
# TestProgram.Proofs.ProductOrder -- the product counts through all choices of alternatives

A choice is a list of numbers, one for each child, each of them that of an alternative.  Read as
digits, where the base at each place is the count of alternatives there and the first child has
the highest place (`placeValue`), the choices of the product are the numbers from zero on
(`map_placeValue_choices`).  All that is to be said of their order follows: each choice occurs
once, at the index that it is written as, and the first child varies slowest.
-/
import TestProgram.Proofs.Blindness
import TestProgram.Proofs.Strategies
import Mathlib.Algebra.Ring.Nat
import Mathlib.Data.List.Nodup

namespace TestProgram.Strategy

set_option autoImplicit false

variable {α β : Type}

/-! ## Growing combinations -/

/-- Every combination with every one of the alternatives behind it. -/
def extended (combinations : List (List β)) (alternatives : List β) : List (List β) :=
  combinations.flatMap (fun combination =>
    alternatives.map (fun alternative => combination ++ [alternative]))

/-- Child by child the combinations grow to those of all children. -/
theorem foldl_extended (children : List (List β)) : ∀ combinations : List (List β),
    children.foldl extended combinations =
      combinations.flatMap (fun combination => (products children).map (combination ++ ·)) := by
  induction children with
  | nil => simp [products]
  | cons alternatives rest ih =>
      intro combinations
      rw [List.foldl_cons, ih, extended, List.flatMap_assoc]
      simp only [products, List.map_flatMap, List.flatMap_map, List.map_map, Function.comp_def,
        List.append_assoc, List.singleton_append]

/-! ## Choices -/

/-- The combination takes from each child the alternative whose number was chosen. -/
inductive Picks : List (List β) → List Nat → List β → Prop
  | nil : Picks [] [] []
  | cons {alternatives : List β} {number : Nat} {alternative : β} {children : List (List β)}
      {choice : List Nat} {combination : List β}
      (here : alternatives[number]? = some alternative)
      (later : Picks children choice combination) :
      Picks (alternatives :: children) (number :: choice) (alternative :: combination)

/-- The number that digits stand for, the highest place first, each place with its own base. -/
def placeValue : List Nat → List Nat → Nat
  | _ :: bases, digit :: digits => digit * bases.prod + placeValue bases digits
  | _, _ => 0

/-- All choices among so many alternatives. -/
def choicesOf (counts : List Nat) : List (List Nat) :=
  products (counts.map List.range)

theorem mem_products_iff (children : List (List β)) : ∀ combination,
    combination ∈ products children ↔ List.Forall₂ (· ∈ ·) combination children := by
  refine fun combination => ⟨products_mem children combination, fun each => ?_⟩
  induction each with
  | nil => simp [products]
  | cons here _ ih =>
      exact List.mem_flatMap.mpr ⟨_, here, List.mem_map.mpr ⟨_, ih, rfl⟩⟩

theorem mem_choicesOf (counts : List Nat) (choice : List Nat) :
    choice ∈ choicesOf counts ↔ List.Forall₂ (· < ·) choice counts := by
  rw [choicesOf, mem_products_iff, List.forall₂_map_right_iff]
  simp only [List.mem_range]

/-- Counting through the multiples of a base, and from each on to the next. -/
theorem range_mul (count base : Nat) :
    (List.range count).flatMap (fun digit => (List.range base).map (digit * base + ·)) =
      List.range (count * base) := by
  induction count with
  | zero => simp
  | succ count ih =>
      rw [List.range_succ, List.flatMap_append, ih, List.flatMap_singleton, Nat.succ_mul,
        List.range_add]

/-- The choices are written as the numbers from zero on. -/
theorem map_placeValue_choices (counts : List Nat) :
    (choicesOf counts).map (placeValue counts) = List.range counts.prod := by
  induction counts with
  | nil => rfl
  | cons count rest ih =>
      have grouped : (choicesOf (count :: rest)).map (placeValue (count :: rest)) =
          (List.range count).flatMap (fun digit =>
            ((choicesOf rest).map (placeValue rest)).map (digit * rest.prod + ·)) := by
        simp only [choicesOf, List.map_cons, products, List.map_flatMap, List.map_map,
          Function.comp_def, placeValue]
      rw [grouped, ih, range_mul, List.prod_cons]

theorem placeValue_lt {counts choice : List Nat} (inside : List.Forall₂ (· < ·) choice counts) :
    placeValue counts choice < counts.prod := by
  have listed := List.mem_map_of_mem (f := placeValue counts)
    ((mem_choicesOf counts choice).mpr inside)
  rwa [map_placeValue_choices, List.mem_range] at listed

/-- Of two choices the one that is written as the smaller number comes first in the order of
dictionaries. -/
theorem lt_of_placeValue_lt {counts first second : List Nat}
    (inside : List.Forall₂ (· < ·) first counts) (also_inside : List.Forall₂ (· < ·) second counts)
    (less : placeValue counts first < placeValue counts second) : first < second := by
  induction inside generalizing second with
  | nil =>
      cases also_inside
      exact absurd less (Nat.lt_irrefl _)
  | @cons digit count digits counts here later ih =>
      cases also_inside with
      | @cons other _ others _ also_here also_later =>
          rw [List.cons_lt_cons_iff]
          simp only [placeValue] at less
          have := placeValue_lt later
          have := placeValue_lt also_later
          rcases Nat.lt_trichotomy digit other with smaller | rfl | greater
          · exact .inl smaller
          · exact .inr ⟨rfl, ih also_later (by omega)⟩
          · have := Nat.mul_le_mul_right counts.prod (Nat.succ_le_of_lt greater)
            rw [Nat.succ_mul] at this
            omega

/-! ## The product -/

theorem picks_range (alternatives : List β) :
    List.Forall₂ (fun number alternative => alternatives[number]? = some alternative)
      (List.range alternatives.length) alternatives := by
  rw [List.forall₂_iff_get]
  refine ⟨List.length_range, fun number _ inside => ?_⟩
  simp [List.getElem?_eq_getElem inside]

/-- The combinations are those of the choices, in the same order. -/
theorem choices_pick (children : List (List β)) :
    List.Forall₂ (Picks children) (choicesOf (children.map List.length)) (products children) := by
  induction children with
  | nil => exact .cons .nil .nil
  | cons alternatives rest ih =>
      refine List.rel_flatMap (picks_range alternatives) (fun number alternative here => ?_)
      rw [List.forall₂_map_left_iff, List.forall₂_map_right_iff]
      exact ih.imp (fun _ _ later => .cons here later)

/-- The combinations belong to the choices one by one, and these are all the choices that there
are, counted through. -/
structure CountsThrough (children : List (List β)) (choices : List (List Nat))
    (combinations : List (List β)) : Prop where
  picks : List.Forall₂ (Picks children) choices combinations
  count : combinations.length = (children.map List.length).prod
  /-- The choice at an index is the index, written with the counts of alternatives as bases. -/
  digits : ∀ (index : Nat) (choice : List Nat), choices[index]? = some choice →
    placeValue (children.map List.length) choice = index
  /-- Numbers below the counts of alternatives are a choice, and nothing else is. -/
  all : ∀ choice, choice ∈ choices ↔ List.Forall₂ (· < ·) choice (children.map List.length)
  once : choices.Nodup
  /-- The first child varies slowest. -/
  slowest : choices.Pairwise (· < ·)
  without_children : children = [] → combinations = [[]]
  without_alternatives : [] ∈ children → combinations = []

theorem products_countsThrough (children : List (List β)) :
    CountsThrough children (choicesOf (children.map List.length)) (products children) := by
  have counted := map_placeValue_choices (children.map List.length)
  have lengths : (products children).length = (children.map List.length).prod := by
    rw [← (choices_pick children).length_eq, ← List.length_range (n := (children.map _).prod),
      ← counted, List.length_map]
  refine ⟨choices_pick children, lengths, ?_, mem_choicesOf _, ?_, ?_, ?_, ?_⟩
  · intro index choice there
    have written := congrArg (fun numbers : List Nat => numbers[index]?) counted
    simp only [List.getElem?_map, there, Option.map_some] at written
    obtain ⟨_, same⟩ := List.getElem?_eq_some_iff.mp written.symm
    simpa using same.symm
  · exact List.Nodup.of_map _ (counted ▸ List.nodup_range)
  · have increasing : ((choicesOf (children.map List.length)).map
        (placeValue (children.map List.length))).Pairwise (· < ·) :=
      counted ▸ List.pairwise_lt_range
    refine (List.pairwise_map.mp increasing).imp_of_mem (fun member also_member less => ?_)
    exact lt_of_placeValue_lt ((mem_choicesOf _ _).mp member) ((mem_choicesOf _ _).mp also_member)
      less
  · rintro rfl
    rfl
  · intro barren
    refine List.eq_nil_iff_forall_not_mem.mpr (fun combination member => ?_)
    obtain ⟨_, _, none_there⟩ :=
      Paired.exists_partner ((mem_products_iff children combination).mp member) [] barren
    exact absurd none_there List.not_mem_nil

/-- **The product counts through all choices.**  From any children, and without drawing anything,
the product grows its combinations child by child.  They come to one for each choice of an
alternative of every child, in the order in which the choices are counted through with the first
child as the highest place. -/
theorem product_counts_through (children : List (List (Stream α))) :
    ∃ choices combinations, (∀ random, product children random = (combinations, random)) ∧
      combinations = children.foldl extended [[]] ∧
      CountsThrough children choices combinations := by
  refine ⟨choicesOf (children.map List.length), products children, fun _ => rfl, ?_,
    products_countsThrough children⟩
  simp [foldl_extended]

example : choicesOf [2, 3] = [[0, 0], [0, 1], [0, 2], [1, 0], [1, 1], [1, 2]] := by decide

end TestProgram.Strategy
