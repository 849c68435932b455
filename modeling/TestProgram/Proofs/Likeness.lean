/-
# TestProgram.Proofs.Likeness -- streams that are alike are composed alike

`Draw.Beside V here there` says that two draws take the same words and come to results that
belong together.  Built-in strategies move what they are given and never look inside, so from
streams that belong together they make streams that do.  For orders and interleavings this
follows from their blindness: lists whose items belong together are the two sides of a list of
pairs (`Paired.exists_pairs`), and what is made of the sides is the sides of what is made of
the pairs.

How much must be alike depends on the strategy.  Combinators, orders and catenation take
streams as they are; the other compositors cut them into units, so the streams must be alike
unit by unit (`UnitsAlike`).  And a child with a single stream may be missing on one side
where combinations are made by counting (`diagonal_thinned`, `product_thinned`).
-/
import TestProgram.Proofs.Blindness
import TestProgram.Proofs.Composition
import TestProgram.Proofs.Draw
import TestProgram.Proofs.Thinning

namespace TestProgram

set_option autoImplicit false

/-! ## Draws -/

namespace Draw

variable {α β γ δ : Type} {V : α → β → Prop} {W : γ → δ → Prop}

/-- Two draws that take the same words and come to results that belong together. -/
def Beside (V : α → β → Prop) (here : Draw α) (there : Draw β) : Prop :=
  ∀ random, V (here random).1 (there random).1 ∧ (here random).2 = (there random).2

theorem beside_pure {value : α} {other : β} (related : V value other) :
    Beside V (pure value) (pure other) :=
  fun _ => ⟨related, rfl⟩

theorem Beside.bind {here : Draw α} {there : Draw β} {next : α → Draw γ} {further : β → Draw δ}
    (together : Beside V here there)
    (later : ∀ value other, V value other → Beside W (next value) (further other)) :
    Beside W (here >>= next) (there >>= further) := by
  intro random
  obtain ⟨related, same⟩ := together random
  change W (next (here random).1 (here random).2).1 (further (there random).1 (there random).2).1 ∧
    (next (here random).1 (here random).2).2 = (further (there random).1 (there random).2).2
  rw [← same]
  exact later _ _ related (here random).2

/-- The same draw seen from two sides. -/
theorem beside_sides {left : γ → α} {right : γ → β} (sides : ∀ value, V (left value) (right value))
    (draw : Draw γ) : Beside V (left <$> draw) (right <$> draw) :=
  fun _ => ⟨sides _, rfl⟩

theorem beside_mapM {step : α → Draw γ} {other : β → Draw δ} {items : List α} {others : List β}
    (paired : List.Forall₂ V items others)
    (each : ∀ item counterpart, V item counterpart → Beside W (step item) (other counterpart)) :
    Beside (List.Forall₂ W) (items.mapM step) (others.mapM other) := by
  induction paired with
  | nil =>
      rw [List.mapM_nil, List.mapM_nil]
      exact beside_pure .nil
  | cons here _ ih =>
      rw [List.mapM_cons, List.mapM_cons]
      refine (each _ _ here).bind (fun _ _ related => ih.bind (fun _ _ later => ?_))
      exact beside_pure (.cons related later)

end Draw

/-! ## Two sides of the same pairs -/

/-- Lists whose items belong together are the two sides of a list of pairs. -/
theorem Paired.exists_pairs {α β : Type} {R : α → β → Prop} {items : List α} {others : List β}
    (paired : List.Forall₂ R items others) :
    ∃ pairs : List { pair : α × β // R pair.1 pair.2 },
      items = pairs.map (·.1.1) ∧ others = pairs.map (·.1.2) := by
  induction paired with
  | nil => exact ⟨[], rfl, rfl⟩
  | cons here _ ih =>
      obtain ⟨pairs, rfl, rfl⟩ := ih
      exact ⟨⟨(_, _), here⟩ :: pairs, rfl, rfl⟩

theorem Paired.exists_pair_lists {α β : Type} {R : α → β → Prop} {lists : List (List α)}
    {others : List (List β)} (paired : List.Forall₂ (List.Forall₂ R) lists others) :
    ∃ pairs : List (List { pair : α × β // R pair.1 pair.2 }),
      lists = pairs.map (List.map (·.1.1)) ∧ others = pairs.map (List.map (·.1.2)) := by
  induction paired with
  | nil => exact ⟨[], rfl, rfl⟩
  | cons here _ ih =>
      obtain ⟨first, rfl, rfl⟩ := exists_pairs here
      obtain ⟨pairs, rfl, rfl⟩ := ih
      exact ⟨first :: pairs, rfl, rfl⟩

theorem Paired.of_pairs {α β : Type} {R : α → β → Prop}
    (pairs : List { pair : α × β // R pair.1 pair.2 }) :
    List.Forall₂ R (pairs.map (·.1.1)) (pairs.map (·.1.2)) := by
  induction pairs with
  | nil => exact .nil
  | cons pair _ ih => exact .cons pair.2 ih

namespace Strategy

open Draw (Beside beside_pure beside_sides beside_mapM)

variable {α : Type} {R : Stream α → Stream α → Prop}

/-! ## Combinations and orders -/

section Combinations

variable {children others : List (List (Stream α))}
  (paired : List.Forall₂ (List.Forall₂ R) children others)

include paired

theorem diagonal_beside :
    Beside (List.Forall₂ (List.Forall₂ R)) (diagonal children) (diagonal others) := by
  obtain ⟨pairs, rfl, rfl⟩ := Paired.exists_pair_lists paired
  unfold diagonal
  rw [choices?_map, choices?_map]
  cases choices? pairs with
  | none => exact beside_pure .nil
  | some choices =>
      refine beside_pure ?_
      simp only [longest_map, lockstep_map]
      rw [List.forall₂_map_left_iff, List.forall₂_map_right_iff]
      exact List.forall₂_same.mpr (fun index _ => Paired.of_pairs _)

theorem product_beside :
    Beside (List.Forall₂ (List.Forall₂ R)) (product children) (product others) := by
  obtain ⟨pairs, rfl, rfl⟩ := Paired.exists_pair_lists paired
  refine beside_pure ?_
  rw [products_map, products_map, List.forall₂_map_left_iff, List.forall₂_map_right_iff]
  exact List.forall₂_same.mpr (fun combination _ => Paired.of_pairs _)

theorem randomCombinator_beside :
    Beside (List.Forall₂ (List.Forall₂ R)) (randomCombinator children)
      (randomCombinator others) := by
  obtain ⟨pairs, rfl, rfl⟩ := Paired.exists_pair_lists paired
  unfold randomCombinator
  rw [choices?_map, choices?_map]
  cases choices? pairs with
  | none => exact beside_pure .nil
  | some choices =>
      change Beside _ (drawCombinations _ _) (drawCombinations _ _)
      rw [longest_map, longest_map, drawCombinations_map, drawCombinations_map]
      refine beside_sides (fun combinations => ?_) _
      rw [List.forall₂_map_left_iff, List.forall₂_map_right_iff]
      exact List.forall₂_same.mpr (fun combination _ => Paired.of_pairs _)

theorem combinator_beside {name : Option String} {combine : Combinator α}
    (found : builtins.combinator name = .ok combine) :
    Beside (List.Forall₂ (List.Forall₂ R)) (combine children) (combine others) := by
  rcases combinator_cases found with ⟨rfl, _⟩ | ⟨rfl, _⟩ | ⟨rfl, _⟩
  · exact diagonal_beside paired
  · exact product_beside paired
  · exact randomCombinator_beside paired

end Combinations

section Orders

variable {streams others : List (Stream α)} (paired : List.Forall₂ R streams others)

include paired

theorem shuffle_beside : Beside (List.Forall₂ R) (Draw.shuffle streams) (Draw.shuffle others) := by
  obtain ⟨pairs, rfl, rfl⟩ := Paired.exists_pairs paired
  rw [shuffle_along, shuffle_along]
  exact beside_sides Paired.of_pairs _

theorem permutator_beside {name : Option String} {permute : Permutator α}
    (found : builtins.permutator name = .ok permute) :
    Beside (List.Forall₂ R) (permute streams) (permute others) := by
  rcases permutator_cases found with ⟨rfl, _⟩ | ⟨rfl, _⟩
  · exact beside_pure paired
  · exact shuffle_beside paired

theorem rearranger_beside (concat : ∀ {streams others : List (Stream α)},
      List.Forall₂ R streams others → R (Stream.concat streams) (Stream.concat others))
    {name : Option String} {rearrange : Rearranger α}
    (found : builtins.rearranger name = .ok rearrange) :
    Beside (List.Forall₂ R) (rearrange streams) (rearrange others) := by
  rcases rearranger_cases found with ⟨rfl, _⟩ | ⟨rfl, _⟩ | ⟨rfl, _⟩
  · exact beside_pure paired
  · refine beside_pure ?_
    cases paired with
    | nil => exact .nil
    | cons here later => exact .cons (concat (.cons here later)) .nil
  · exact shuffle_beside paired

/-- The streams of a block as they are finished. -/
theorem finishing_beside (concat : ∀ {streams others : List (Stream α)},
      List.Forall₂ R streams others → R (Stream.concat streams) (Stream.concat others))
    {strategies : StrategySet} {finish : List (Stream α) → Draw (List (Stream α))}
    (found : Expansion.finishing builtins strategies = .ok finish) :
    Beside (List.Forall₂ R) (finish streams) (finish others) := by
  obtain ⟨rearrange, rearranges, rfl⟩ := finishing_ok found
  refine (rearranger_beside paired concat rearranges).bind (fun _ _ rearranged => ?_)
  exact beside_mapM rearranged (fun _ _ related => beside_pure related)

end Orders

/-! ## Units -/

section Units

variable {U : List α → List α → Prop}

/-- Two streams whose units belong together. -/
def UnitsAlike (U : List α → List α → Prop) (stream other : Stream α) : Prop :=
  List.Forall₂ U stream.units other.units

variable (filled : ∀ unit other, U unit other → unit.isEmpty = other.isEmpty)

include filled in
theorem unitsAlike_ofUnits {units others : List (List α)} (paired : List.Forall₂ U units others) :
    UnitsAlike U (Stream.ofUnits units) (Stream.ofUnits others) := by
  change List.Forall₂ U (units.filter _) (others.filter _)
  induction paired with
  | nil => exact .nil
  | cons here _ ih =>
      rw [List.filter_cons, List.filter_cons, filled _ _ here]
      split
      · exact .cons here ih
      · exact ih

variable {streams others : List (Stream α)}
  (paired : List.Forall₂ (UnitsAlike U) streams others)

include paired

theorem catenation_unitsAlike : UnitsAlike U (Stream.concat streams) (Stream.concat others) := by
  change List.Forall₂ U (streams.map Stream.units).flatten (others.map Stream.units).flatten
  induction paired with
  | nil => exact .nil
  | cons here _ ih => exact List.rel_append here ih

theorem exists_unit_pairs :
    ∃ pairs : List (List { pair : List α × List α // U pair.1 pair.2 }),
      streams.map Stream.units = pairs.map (List.map (·.1.1)) ∧
      others.map Stream.units = pairs.map (List.map (·.1.2)) := by
  refine Paired.exists_pair_lists ?_
  rw [List.forall₂_map_left_iff, List.forall₂_map_right_iff]
  exact paired

include filled

theorem rotation_beside : Beside (UnitsAlike U) (rotation streams) (rotation others) := by
  obtain ⟨pairs, here, there⟩ := exists_unit_pairs paired
  refine beside_pure ?_
  rw [here, there, columns_map, columns_map]
  exact unitsAlike_ofUnits filled (Paired.of_pairs _)

theorem nesting_beside : Beside (UnitsAlike U) (nesting streams) (nesting others) := by
  induction paired with
  | nil => exact beside_pure .nil
  | cons here _ ih =>
      refine ih.bind (fun inner counterpart nested => ?_)
      rw [List.Forall₂.length_eq here]
      refine Draw.Beside.bind (V := Eq) (fun _ => ⟨rfl, rfl⟩) ?_
      rintro place _ rfl
      refine beside_pure (unitsAlike_ofUnits filled ?_)
      exact List.rel_append (List.rel_append (List.forall₂_take place here) nested)
        (List.forall₂_drop place here)

theorem randomCompositor_beside :
    Beside (UnitsAlike U) (randomCompositor streams) (randomCompositor others) := by
  obtain ⟨pairs, here, there⟩ := exists_unit_pairs paired
  have sizes : (streams.map Stream.units).map List.length =
      (others.map Stream.units).map List.length := by
    simp [here, there, Function.comp_def]
  change Beside _ (interleave _ (streams.map Stream.units) >>= _)
    (interleave _ (others.map Stream.units) >>= _)
  rw [sizes, here, there, interleave_map, interleave_map]
  exact (beside_sides Paired.of_pairs _).bind
    (fun _ _ alike => beside_pure (unitsAlike_ofUnits filled alike))

/-- Streams that are alike unit by unit are composed so. -/
theorem compositor_beside {name : Option String} {compose : Compositor α}
    (found : builtins.compositor name = .ok compose) :
    Beside (UnitsAlike U) (compose streams) (compose others) := by
  rcases compositor_cases found with ⟨rfl, _⟩ | ⟨rfl, _⟩ | ⟨rfl, _⟩ | ⟨rfl, _⟩
  · exact beside_pure (catenation_unitsAlike paired)
  · exact rotation_beside filled paired
  · exact nesting_beside filled paired
  · exact randomCompositor_beside filled paired

end Units

/-! ## Children that are missing on one side -/

section Missing

variable {gone : Stream α → Bool}

/-- A child that has one stream only, which may be left out. -/
def alone (gone : Stream α → Bool) : List (Stream α) → Bool
  | [stream] => gone stream
  | _ => false

theorem alone_iff {streams : List (Stream α)} :
    alone gone streams = true ↔ ∃ stream, streams = [stream] ∧ gone stream = true := by
  unfold alone
  split <;> simp_all

/-- The choices of two children, alternative by alternative. -/
def Choices.Alike (R : Stream α → Stream α → Prop) (choices other : Choices (Stream α)) : Prop :=
  R choices.1 other.1 ∧ List.Forall₂ R choices.2 other.2

/-- The only choice of a child that may be left out. -/
def Choices.alone (gone : Stream α → Bool) (choices : Choices (Stream α)) : Bool :=
  choices.2.isEmpty && gone choices.1

theorem Choices.Alike.get {choices other : Choices (Stream α)}
    (alike : Choices.Alike R choices other) (index : Nat) :
    R (choices.get index) (other.get index) := by
  have all : List.Forall₂ R (choices.1 :: choices.2) (other.1 :: other.2) :=
    .cons alike.1 alike.2
  simp only [Choices.get, List.getD_eq_getElem?_getD]
  rcases Option.eq_none_or_eq_some ((choices.1 :: choices.2)[index]?) with absent | ⟨chosen, there⟩
  · have also_absent : (other.1 :: other.2)[index]? = none := by
      rw [List.getElem?_eq_none_iff] at absent ⊢
      rwa [← all.length_eq]
    rw [absent, also_absent]
    exact alike.1
  · obtain ⟨counterpart, also_there, related⟩ := Paired.at_place all.flip there
    rw [there, also_there]
    exact related

theorem products_thinned {kept : List Bool} {children others : List (List (Stream α))}
    (thinned : Thinned (List.Forall₂ R) (alone gone) kept children others) :
    List.Forall₂ (Thinned R gone kept) (products children) (products others) := by
  induction thinned with
  | nil => exact .cons .nil .nil
  | keep here _ ih =>
      refine List.rel_flatMap here (fun stream other related => ?_)
      rw [List.forall₂_map_left_iff, List.forall₂_map_right_iff]
      exact ih.imp (fun _ _ later => .keep related later)
  | @drop _ _ _ child left_out _ ih =>
      obtain ⟨stream, rfl, bare⟩ := alone_iff.mp left_out
      rw [products, List.flatMap_singleton, List.forall₂_map_left_iff]
      exact ih.imp (fun _ _ later => .drop bare later)

theorem choices?_nil_cons (rest : List (List (Stream α))) : choices? ([] :: rest) = none := by
  simp [choices?]

theorem choices?_cons (first : Stream α) (further : List (Stream α))
    (rest : List (List (Stream α))) :
    choices? ((first :: further) :: rest) = (choices? rest).map ((first, further) :: ·) := by
  simp only [choices?, List.mapM_cons, Option.bind_eq_bind, Option.bind_some, Option.pure_def]
  rw [Option.map_eq_bind]
  rfl

theorem choices?_thinned {kept : List Bool} {children others : List (List (Stream α))}
    (thinned : Thinned (List.Forall₂ R) (alone gone) kept children others) :
    Option.Rel (Thinned (Choices.Alike R) (Choices.alone gone) kept) (choices? children)
      (choices? others) := by
  induction thinned with
  | nil => exact .some .nil
  | @keep _ rest others _ _ here _ ih =>
      cases here with
      | nil =>
          rw [choices?_nil_cons, choices?_nil_cons]
          exact .none
      | cons first further =>
          rw [choices?_cons, choices?_cons]
          generalize choices? rest = chosen, choices? others = counterparts at ih ⊢
          cases ih with
          | none => exact .none
          | some later => exact .some (.keep ⟨first, further⟩ later)
  | @drop _ rest others _ left_out _ ih =>
      obtain ⟨stream, rfl, bare⟩ := alone_iff.mp left_out
      rw [choices?_cons]
      generalize choices? rest = chosen, choices? others = counterparts at ih ⊢
      cases ih with
      | none => exact .none
      | some later => exact .some (.drop (by simpa [Choices.alone] using bare) later)

theorem lockstep_thinned {kept : List Bool} {children others : List (Choices (Stream α))}
    (thinned : Thinned (Choices.Alike R) (Choices.alone gone) kept children others) (index : Nat) :
    Thinned R gone kept (lockstep children index) (lockstep others index) := by
  induction thinned with
  | nil => exact .nil
  | @keep _ _ _ choices other here _ ih =>
      refine .keep ?_ ih
      change R (choices.get (index % (choices.2.length + 1)))
        (other.get (index % (other.2.length + 1)))
      rw [here.2.length_eq]
      exact here.get _
  | @drop _ _ _ choices left_out _ ih =>
      refine .drop ?_ ih
      obtain ⟨stream, further⟩ := choices
      obtain ⟨empty, bare⟩ := Bool.and_eq_true_iff.mp left_out
      obtain rfl := List.isEmpty_iff.mp empty
      simpa [Choices.get, Nat.mod_one] using bare

theorem longest_cons {β : Type} (first : Choices β) (rest : List (Choices β)) :
    longest (first :: rest) = max (first.2.length + 1) (longest rest) := by
  have from_any : ∀ (sizes : List Nat) (start : Nat),
      sizes.foldl max start = max start (sizes.foldl max 0) := by
    intro sizes
    induction sizes with
    | nil => simp
    | cons size sizes ih =>
        intro start
        rw [List.foldl_cons, List.foldl_cons, ih, ih (max 0 size)]
        omega
  rw [longest, List.map_cons, List.foldl_cons, from_any, Nat.zero_max]
  rfl

/-- One choice less of a child makes the longest no shorter, where there is another child. -/
theorem longest_thinned {kept : List Bool} {children others : List (Choices (Stream α))}
    (thinned : Thinned (Choices.Alike R) (Choices.alone gone) kept children others)
    (left : others ≠ []) : longest children = longest others := by
  have same : max 1 (longest children) = max 1 (longest others) := by
    clear left
    induction thinned with
    | nil => rfl
    | keep here _ ih =>
        rw [longest_cons, longest_cons, here.2.length_eq]
        omega
    | drop left_out _ ih =>
        have single := List.isEmpty_iff.mp (Bool.and_eq_true_iff.mp left_out).1
        rw [longest_cons, single, List.length_nil, ← ih]
        omega
  have positive : ∀ choices : List (Choices (Stream α)), choices ≠ [] → 1 ≤ longest choices := by
    rintro (_ | ⟨first, rest⟩) some
    · exact absurd rfl some
    · rw [longest_cons]
      omega
  have some_children : children ≠ [] := by
    rintro rfl
    cases thinned
    exact left rfl
  have := positive others left
  have := positive children some_children
  omega

/-- Combinations that are counted and not drawn: a child with a single stream makes no
difference to them where there is another child. -/
theorem counting_beside {name : Option String} (counts : name ≠ some "random")
    {combine : Combinator α} (found : builtins.combinator name = .ok combine) {kept : List Bool}
    {children others : List (List (Stream α))}
    (thinned : Thinned (List.Forall₂ R) (alone gone) kept children others) (left : others ≠ []) :
    Beside (List.Forall₂ (Thinned R gone kept)) (combine children) (combine others) := by
  rcases combinator_cases found with ⟨rfl, _⟩ | ⟨rfl, _⟩ | ⟨_, named⟩
  · have choices := choices?_thinned thinned
    unfold diagonal
    generalize choices? children = here, choices? others = there at choices
    cases choices with
    | none => exact beside_pure .nil
    | @some chosen counterparts later =>
        have some_chosen : counterparts ≠ [] := by
          rw [← List.length_pos_iff] at left ⊢
          rwa [later.size, ← thinned.size]
        refine beside_pure ?_
        rw [longest_thinned later some_chosen, List.forall₂_map_left_iff,
          List.forall₂_map_right_iff]
        exact List.forall₂_same.mpr (fun index _ => lockstep_thinned later index)
  · exact beside_pure (products_thinned thinned)
  · exact absurd named counts

end Missing

end Strategy
end TestProgram
