/-
# TestProgram.Proofs.StreamCounts -- how many streams a tree has, and when they are always the same

What a block makes of the streams of its children may be drawn, how many streams it makes is not:
for every strategy their number depends on the numbers of alternatives only (`combinator_length`,
`rearranger_length`).  So it can be read off the tree (`Tree.count`), whatever is drawn while the
tree is expanded.

A block that attaches no strategy named `random` and does not nest draws nothing at all.  What it
makes of the streams of its children is then always the same (`composition_settled`,
`finishing_following`).
-/
import TestProgram.Proofs.Likeness
import TestProgram.Proofs.ProductOrder
import TestProgram.Proofs.SealedTrees

namespace TestProgram

set_option autoImplicit false

/-! ## Counts -/

/-- The combinations that a combinator of this name makes of so many alternatives each. -/
def combinationCount (combinator : Option String) (counts : List Nat) : Nat :=
  if combinator = some "product" then counts.prod
  else if 0 ∈ counts then 0
  else counts.foldr max 0

/-- What a rearranger of this name leaves of so many streams. -/
def rearrangedCount (rearranger : Option String) (count : Nat) : Nat :=
  if rearranger = some "expand" then min 1 count else count

namespace BlockInfo

/-- The streams that a block composes of children with so many streams each. -/
def composedCount (info : BlockInfo) (counts : List Nat) : Nat :=
  match info.kind with
  | .sequence | .atomic => 1
  | .iterate => counts.sum
  | .free => combinationCount info.strategies.combinator counts

/-- The streams of a block whose children have so many streams each. -/
def count (info : BlockInfo) (counts : List Nat) : Nat :=
  rearrangedCount info.strategies.rearranger (info.composedCount counts)

end BlockInfo

namespace Tree

variable {α : Type}

mutual

/-- How many streams the tree stands for. -/
def count : Tree α → Nat
  | .leaf _ => 1
  | .block info children => info.count (countAll children)

/-- How many streams each of the trees stands for. -/
def countAll : List (Tree α) → List Nat
  | [] => []
  | child :: rest => count child :: countAll rest

end

end Tree

/-- None of the strategies attached draws anything. -/
structure StrategySet.Settled (strategies : StrategySet) : Prop where
  not_random : ∀ option, strategies.get? option ≠ some "random"
  not_nesting : strategies.compositor ≠ some "nesting"

/-! ## How many there are -/

theorem Draw.always_mapM_length {α β : Type} (draw : α → Draw β) (items : List α) :
    Always (items.mapM draw) (·.length = items.length) := by
  refine (always_mapM (R := fun _ _ => True) (fun _ _ _ => trivial)).mono ?_
  exact fun results paired => paired.length_eq.symm

namespace Strategy

variable {α β : Type}

theorem longest_eq (choices : List (Choices β)) :
    longest choices =
      ((choices.map (fun choice => choice.1 :: choice.2)).map List.length).foldr max 0 := by
  induction choices with
  | nil => rfl
  | cons first rest ih => rw [longest_cons, ih]; rfl

theorem choices?_of_barren {children : List (List β)} (barren : [] ∈ children) :
    choices? children = none := by
  cases found : choices? children with
  | none => rfl
  | some choices =>
      rw [choices?_eq_some found] at barren
      obtain ⟨choice, _, empty⟩ := List.mem_map.mp barren
      cases empty

theorem drawCombinations_length (choices : List (Choices β)) (count : Nat) :
    Draw.Always (drawCombinations choices count) (·.length = count) := by
  induction count with
  | zero => exact Draw.always_pure rfl
  | succ count ih =>
      refine Draw.always_bind (P := fun _ => True) (fun _ => trivial) (fun first _ => ?_)
      exact Draw.always_bind ih (fun rest counted => Draw.always_pure (by simp [counted]))

/-- Where combinations are made in rounds there are as many as the longest child has alternatives,
unless some child has none. -/
theorem rounds_length {children : List (List (Stream α))} {name : Option String}
    {make : List (Choices (Stream α)) → Draw (List (List (Stream α)))}
    (other : name ≠ some "product")
    (each : ∀ choices, Draw.Always (make choices) (·.length = longest choices)) :
    Draw.Always
      (match choices? children with
        | none => pure []
        | some choices => make choices)
      (·.length = combinationCount name (children.map List.length)) := by
  rw [combinationCount, if_neg other]
  by_cases barren : [] ∈ children
  · have none_counted : 0 ∈ children.map List.length := List.mem_map.mpr ⟨[], barren, rfl⟩
    rw [choices?_of_barren barren, if_pos none_counted]
    exact Draw.always_pure rfl
  · have all_counted : 0 ∉ children.map List.length := by
      simpa using barren
    obtain ⟨choices, found⟩ := choices?_of_filled
      (fun alternatives member empty => barren (empty ▸ member))
    have longest_is := longest_eq choices
    rw [← choices?_eq_some found] at longest_is
    rw [found, if_neg all_counted, ← longest_is]
    exact each choices

/-- How many combinations there are depends on how many alternatives each child has. -/
theorem combinator_length {name : Option String} {combine : Combinator α}
    (found : builtins.combinator name = .ok combine) (children : List (List (Stream α))) :
    Draw.Always (combine children)
      (·.length = combinationCount name (children.map List.length)) := by
  rcases combinator_cases found with ⟨rfl, other, _⟩ | ⟨rfl, rfl⟩ | ⟨rfl, rfl⟩
  · exact rounds_length other (fun choices => Draw.always_pure (by simp))
  · exact Draw.always_pure (products_countsThrough children).count
  · exact rounds_length (by decide) (fun choices => drawCombinations_length choices _)

theorem rearranger_length {name : Option String} {rearrange : Rearranger α}
    (found : builtins.rearranger name = .ok rearrange) (streams : List (Stream α)) :
    Draw.Always (rearrange streams) (·.length = rearrangedCount name streams.length) := by
  rcases rearranger_cases found with ⟨rfl, other, _⟩ | ⟨rfl, rfl⟩ | ⟨rfl, rfl⟩
  · rw [rearrangedCount, if_neg other]
    exact Draw.always_pure rfl
  · refine Draw.always_pure ?_
    cases streams with
    | nil => rfl
    | cons first rest => simp [joined, rearrangedCount]
  · exact (Draw.shuffle_perm streams).mono (fun _ same => same.length_eq)

end Strategy

namespace Expansion

open Strategy

variable {α : Type} {registry : Registry α}

theorem freely_length {combine : Combinator α} {permute : Permutator α} {compose : Compositor α}
    {children : List (List (Stream α))} {count : Nat}
    (counted : Draw.Always (combine children) (·.length = count)) :
    Draw.Always (freely combine permute compose children) (·.length = count) := by
  refine Draw.always_bind counted (fun combinations length => ?_)
  exact (Draw.always_mapM_length _ combinations).mono (fun _ same => same.trans length)

theorem composition_length {info : BlockInfo} {compose : Composition α}
    (composed : composition builtins info.kind info.strategies = .ok compose)
    (alternatives : List (List (Stream α))) :
    Draw.Always (compose alternatives)
      (·.length = info.composedCount (alternatives.map List.length)) := by
  cases kind : info.kind with
  | free =>
      rw [kind] at composed
      obtain ⟨combine, permute, compose, combines, _, _, rfl⟩ := composition_free_ok composed
      simp only [BlockInfo.composedCount, kind]
      exact freely_length (combinator_length combines alternatives)
  | iterate =>
      rw [kind] at composed
      cases composed
      exact Draw.always_pure (by simp [BlockInfo.composedCount, kind, List.length_flatten])
  | sequence =>
      rw [kind] at composed
      cases composed
      exact Draw.always_pure (by simp [BlockInfo.composedCount, kind])
  | atomic =>
      rw [kind] at composed
      cases composed
      exact Draw.always_pure (by simp [BlockInfo.composedCount, kind])

theorem finishing_length {strategies : StrategySet}
    {finish : List (Stream α) → Draw (List (Stream α))}
    (found : finishing builtins strategies = .ok finish) (streams : List (Stream α)) :
    Draw.Always (finish streams)
      (·.length = rearrangedCount strategies.rearranger streams.length) := by
  obtain ⟨rearrange, rearranges, rfl⟩ := finishing_ok found
  refine Draw.always_bind (rearranger_length rearranges streams) (fun rearranged counted => ?_)
  exact (Draw.always_mapM_length _ rearranged).mono (fun _ same => same.trans counted)

theorem expandAll_counts {children : List (Tree α)}
    (each : ∀ child ∈ children, ∀ {engine after : Engine} {streams : List (Stream α)},
      expand registry child engine = (.ok streams, after) → streams.length = child.count) :
    ∀ {engine after : Engine} {alternatives : List (List (Stream α))},
      expandAll registry children engine = (.ok alternatives, after) →
      alternatives.map List.length = Tree.countAll children := by
  induction children with
  | nil =>
      intro engine after alternatives expanded
      cases expanded
      rfl
  | cons child rest ih =>
      intro engine after alternatives expanded
      obtain ⟨streams, middle, here, expanded⟩ := Computation.bind_ok_iff.mp expanded
      obtain ⟨others, last, there, expanded⟩ := Computation.bind_ok_iff.mp expanded
      cases expanded
      rw [List.map_cons, Tree.countAll, each child List.mem_cons_self here,
        ih (fun other member => each other (List.mem_cons_of_mem child member)) there]

/-- However a tree is expanded, its streams are as many as it counts. -/
theorem expand_length (tree : Tree α) :
    UsesBuiltins registry tree → ∀ {engine after : Engine} {streams : List (Stream α)},
      expand registry tree engine = (.ok streams, after) → streams.length = tree.count := by
  induction tree using Tree.induction with
  | leaf call =>
      intro _ engine after streams expanded
      cases expanded
      rfl
  | block info children ih =>
      intro uses engine after streams expanded
      obtain ⟨compose, finish, alternatives, middle, random, composes, finishes, further, rfl⟩ :=
        expand_block_ok expanded
      have counts := expandAll_counts
        (fun child member _ _ _ => ih child member (Tree.EachBlock.child uses child member)) further
      obtain ⟨composition_is, finishing_is⟩ := Tree.EachBlock.here uses
      rw [composition_is] at composes
      rw [finishing_is] at finishes
      have composed := composition_length composes alternatives middle.random
      have finished := finishing_length finishes (compose alternatives middle.random).1 random
      rw [finished, composed, counts, Tree.count, BlockInfo.count]

end Expansion

/-! ## When nothing is drawn -/

namespace Strategy

variable {α : Type}

theorem combinator_settled {name : Option String} {combine : Combinator α}
    (found : builtins.combinator name = .ok combine) (settled : name ≠ some "random")
    (children : List (List (Stream α))) : ∃ combinations, combine children = pure combinations := by
  rcases combinator_cases found with ⟨rfl, _⟩ | ⟨rfl, _⟩ | ⟨_, named⟩
  · unfold diagonal
    split
    · exact ⟨_, rfl⟩
    · exact ⟨_, rfl⟩
  · exact ⟨_, rfl⟩
  · exact absurd named settled

theorem compositor_settled {name : Option String} {compose : Compositor α}
    (found : builtins.compositor name = .ok compose) (not_random : name ≠ some "random")
    (not_nesting : name ≠ some "nesting") :
    ∃ composed : List (Stream α) → Stream α, compose = fun streams => pure (composed streams) := by
  rcases compositor_cases found with ⟨rfl, _⟩ | ⟨rfl, _⟩ | ⟨_, named⟩ | ⟨_, named⟩
  · exact ⟨_, rfl⟩
  · exact ⟨_, rfl⟩
  · exact absurd named not_nesting
  · exact absurd named not_random

end Strategy

namespace Expansion

open Strategy

variable {α : Type} {registry : Registry α}

/-- A block of settled strategies composes the same streams whatever could be drawn. -/
theorem composition_settled {info : BlockInfo} {compose : Composition α}
    (composed : composition builtins info.kind info.strategies = .ok compose)
    (settled : info.strategies.Settled) (alternatives : List (List (Stream α))) :
    ∃ streams, compose alternatives = pure streams := by
  cases kind : info.kind with
  | free =>
      rw [kind] at composed
      obtain ⟨combine, permute, compose, combines, permutes, composes, rfl⟩ :=
        composition_free_ok composed
      obtain ⟨combinations, combined⟩ :=
        combinator_settled combines (settled.not_random .combinator) alternatives
      obtain rfl := permutator_of_plain (settled.not_random .permutator) permutes
      obtain ⟨made, rfl⟩ :=
        compositor_settled composes (settled.not_random .compositor) settled.not_nesting
      refine ⟨combinations.map made, ?_⟩
      simp only [freely, combined, pure_bind, identity]
      exact List.mapM_pure
  | _ =>
      rw [kind] at composed
      cases composed
      exact ⟨_, rfl⟩

theorem expandAll_settled {children : List (Tree α)}
    (each : ∀ child ∈ children, ∃ streams, ∀ engine, ∃ after,
      expand registry child engine = (.ok streams, after) ∧ after.random = engine.random) :
    ∃ alternatives, ∀ engine, ∃ after,
      expandAll registry children engine = (.ok alternatives, after) ∧
        after.random = engine.random := by
  induction children with
  | nil => exact ⟨[], fun engine => ⟨engine, rfl, rfl⟩⟩
  | cons child rest ih =>
      obtain ⟨streams, here⟩ := each child List.mem_cons_self
      obtain ⟨others, there⟩ :=
        ih (fun other member => each other (List.mem_cons_of_mem child member))
      refine ⟨streams :: others, fun engine => ?_⟩
      obtain ⟨middle, first, drawn⟩ := here engine
      obtain ⟨after, later, also_drawn⟩ := there middle
      exact ⟨after, Computation.bind_ok_iff.mpr ⟨streams, middle, first,
        Computation.bind_ok_iff.mpr ⟨others, after, later, rfl⟩⟩, also_drawn.trans drawn⟩

/-- A tree of settled strategies has the same streams from every engine, and takes no word. -/
theorem expand_settled (tree : Tree α) : UsesBuiltins registry tree →
    tree.EachBlock (Knows registry) → tree.EachBlock (fun info => info.strategies.Settled) →
    ∃ streams, ∀ engine, ∃ after,
      expand registry tree engine = (.ok streams, after) ∧ after.random = engine.random := by
  induction tree using Tree.induction with
  | leaf call => exact fun _ _ _ => ⟨[Stream.single call], fun engine => ⟨engine, rfl, rfl⟩⟩
  | block info children ih =>
      intro uses known settled
      obtain ⟨alternatives, further⟩ := expandAll_settled (fun child member =>
        ih child member (Tree.EachBlock.child uses child member) (known.child child member)
          (settled.child child member))
      obtain ⟨⟨compose, composes⟩, finish, finishes⟩ := known.here
      obtain ⟨composition_is, finishing_is⟩ := Tree.EachBlock.here uses
      obtain ⟨made, composed⟩ :=
        composition_settled (composition_is ▸ composes) settled.here alternatives
      obtain ⟨streams, finished, _⟩ := finishing_following (finishing_is ▸ finishes) made
        (settled.here.not_random .rearranger)
      refine ⟨streams, fun engine => ?_⟩
      obtain ⟨middle, expanded, drawn⟩ := further engine
      have composing : compose alternatives middle.random = (made, middle.random) :=
        congrFun composed middle.random
      have finishing : finish made middle.random = (streams, middle.random) :=
        congrFun finished middle.random
      refine ⟨_, expand_block_ok_iff.mpr ⟨compose, finish, alternatives, middle, composes, finishes,
        expanded, ?_, rfl⟩, ?_⟩
      · rw [composing, finishing]
      · rw [composing, finishing]
        exact drawn

/-! ## The whole tree -/

/-- **The number of streams depends on the tree alone.**  A tree with built-in strategies expands
from every engine, to as many streams as it counts.  If moreover no block attaches a strategy
that draws, the streams are the same from every engine, and no word of its source is taken. -/
theorem expand_counts (registry : Registry α) (tree : Tree α) (equipped : Equipped registry tree) :
    (∀ engine, ∃ streams after, expand registry tree engine = (.ok streams, after) ∧
      streams.length = tree.count) ∧
    (tree.EachBlock (fun info => info.strategies.Settled) →
      ∃ streams, ∀ engine, ∃ after, expand registry tree engine = (.ok streams, after) ∧
        after.random = engine.random) := by
  constructor
  · intro engine
    obtain ⟨streams, after, expanded⟩ := expand_succeeds tree equipped.known engine
    exact ⟨streams, after, expanded, expand_length tree equipped.builtin expanded⟩
  · exact expand_settled tree equipped.builtin equipped.known

/-- Every choice of one of two, of two in a row and of one of three. -/
def choicesOfSix : Tree Nat :=
  .block { id := BlockId.root, kind := .free, strategies := { combinator := some "product" } }
    [.block { id := BlockId.root.child 0, kind := .iterate } [.leaf 1, .leaf 2],
      .block { id := BlockId.root.child 1, kind := .iterate,
               strategies := { rearranger := some "expand" } } [.leaf 3, .leaf 4],
      .block { id := BlockId.root.child 2, kind := .iterate } [.leaf 5, .leaf 6, .leaf 7]]

theorem choicesOfSix_equipped : Equipped builtins choicesOfSix where
  builtin := uses_builtins choicesOfSix
  known := by
    simp only [choicesOfSix, Tree.eachBlock_block, List.forall_mem_cons, Tree.eachBlock_leaf]
    exact ⟨⟨⟨_, rfl⟩, _, rfl⟩, ⟨⟨⟨_, rfl⟩, _, rfl⟩, by simp⟩, ⟨⟨⟨_, rfl⟩, _, rfl⟩, by simp⟩,
      ⟨⟨⟨_, rfl⟩, _, rfl⟩, by simp⟩, by simp⟩

theorem choicesOfSix_settled : choicesOfSix.EachBlock (fun info => info.strategies.Settled) := by
  have settled (combinator rearranger : Option String)
      (combines : combinator ≠ some "random") (rearranges : rearranger ≠ some "random") :
      StrategySet.Settled { combinator, rearranger } := by
    refine ⟨fun option => ?_, by simp⟩
    cases option <;> simp_all [StrategySet.get?]
  simp only [choicesOfSix, Tree.eachBlock_block, List.forall_mem_cons, Tree.eachBlock_leaf]
  simp [settled]

theorem expand_counts_six :
    (∃ streams after, expand builtins choicesOfSix (Engine.ofSeed 7) = (.ok streams, after) ∧
      streams.length = 6) ∧
    ∃ streams, ∀ engine, ∃ after, expand builtins choicesOfSix engine = (.ok streams, after) ∧
      after.random = engine.random := by
  obtain ⟨counted, same⟩ := expand_counts builtins choicesOfSix choicesOfSix_equipped
  obtain ⟨streams, after, expanded, length⟩ := counted (Engine.ofSeed 7)
  exact ⟨⟨streams, after, expanded, length.trans (by decide)⟩, same choicesOfSix_settled⟩

end Expansion
end TestProgram
