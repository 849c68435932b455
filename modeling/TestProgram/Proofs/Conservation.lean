/-
# TestProgram.Proofs.Conservation -- expansion loses and invents nothing

Whatever a tree is expanded into, its streams emit calls of the tree and nothing else.  The
other direction depends on the blocks.

A free block emits every alternative of every child if its combinator brings each of them into
some combination.  The lockstep does, since the longest child sets the number of rounds, and so
does the product (`combinator_covers`); drawn combinations may leave alternatives out, and a
child without streams leaves the whole block without any.  Blocks of the other kinds emit what
their children emit, in order, and what happens to composed streams afterwards only changes
where one ends and the next begins, unless they are shuffled.

`expansion_conserves` puts this together: every call is emitted at least as often as it is
declared; in a tree without free blocks exactly as often, and in the order of declaration where
nothing is shuffled.  That two calls may be equal makes no difference, because the first part is
proved of a traced tree, whose calls are all different.
-/
import TestProgram.Proofs.Atomicity
import Mathlib.Data.List.Perm.Subperm

namespace TestProgram

set_option autoImplicit false

namespace Strategy

variable {α β : Type}

/-! ## Combinations of all alternatives -/

/-- Every alternative of every child comes into some combination, if all children have some. -/
def Covers (combine : Combinator α) : Prop :=
  ∀ children, (∀ choices ∈ children, choices ≠ []) →
    Draw.Always (combine children) (fun combinations => ∀ choices ∈ children,
      ∀ choice ∈ choices, ∃ combination ∈ combinations, choice ∈ combination)

theorem choices?_of_filled {children : List (List β)} :
    (∀ choices ∈ children, choices ≠ []) → ∃ each, choices? children = some each := by
  induction children with
  | nil => exact fun _ => ⟨[], rfl⟩
  | cons child rest ih =>
      intro filled
      obtain ⟨later, found⟩ := ih (fun choices member => filled choices (by simp [member]))
      cases child with
      | nil => exact absurd rfl (filled [] (by simp))
      | cons first others =>
          refine ⟨(first, others) :: later, ?_⟩
          simp only [choices?] at found
          simp [choices?, found]

theorem lt_longest {children : List (Choices β)} {choices : Choices β} {index : Nat}
    (listed : choices ∈ children) (below : index < choices.2.length + 1) :
    index < longest children := by
  have counted : choices.2.length + 1 ∈ children.map (fun other => other.2.length + 1) :=
    List.mem_map.mpr ⟨choices, listed, rfl⟩
  exact Nat.lt_of_lt_of_le below ((Interleaving.le_foldl_max _ 0).2 _ counted)

/-- In the round of its own number every alternative has its turn. -/
theorem diagonal_covers : Covers (diagonal : Combinator α) := by
  intro children filled
  obtain ⟨each, found⟩ := choices?_of_filled filled
  unfold diagonal
  rw [found]
  refine Draw.always_pure (fun alternatives listed choice member => ?_)
  rw [choices?_eq_some found] at listed
  obtain ⟨own, among, rfl⟩ := List.mem_map.mp listed
  obtain ⟨index, at_index⟩ := List.mem_iff_getElem?.mp member
  have below : index < own.2.length + 1 := by
    simpa using (List.getElem?_eq_some_iff.mp at_index).1
  have turn : Choices.get own (index % (own.2.length + 1)) = choice := by
    rw [Nat.mod_eq_of_lt below, Choices.get, List.getD_eq_getElem?_getD, at_index]
    rfl
  refine ⟨lockstep each index, ?_, List.mem_map.mpr ⟨own, among, turn⟩⟩
  exact List.mem_map.mpr ⟨index, List.mem_range.mpr (lt_longest among below), rfl⟩

theorem products_ne_nil : ∀ {children : List (List β)}, (∀ choices ∈ children, choices ≠ []) →
    products children ≠ []
  | [], _ => by simp [products]
  | choices :: rest, filled => by
      obtain ⟨first, others, rfl⟩ := List.exists_cons_of_ne_nil (filled choices (by simp))
      have later : products rest ≠ [] :=
        products_ne_nil (fun other member => filled other (List.mem_cons_of_mem _ member))
      simp [products, later]

theorem products_cover : ∀ {children : List (List β)}, (∀ choices ∈ children, choices ≠ []) →
    ∀ choices ∈ children, ∀ choice ∈ choices, ∃ combination ∈ products children,
      choice ∈ combination
  | first :: rest, filled, choices, listed, choice, member => by
      have later_filled : ∀ other ∈ rest, other ≠ [] :=
        fun other further => filled other (by simp [further])
      rcases List.mem_cons.mp listed with rfl | later
      · obtain ⟨others, made⟩ := List.exists_mem_of_ne_nil _ (products_ne_nil later_filled)
        refine ⟨choice :: others, ?_, by simp⟩
        exact List.mem_flatMap.mpr ⟨choice, member, List.mem_map.mpr ⟨others, made, rfl⟩⟩
      · obtain ⟨others, made, inside⟩ := products_cover later_filled choices later choice member
        obtain ⟨beside, given⟩ := List.exists_mem_of_ne_nil _ (filled first (by simp))
        refine ⟨beside :: others, ?_, by simp [inside]⟩
        exact List.mem_flatMap.mpr ⟨beside, given, List.mem_map.mpr ⟨others, made, rfl⟩⟩

theorem product_covers : Covers (product : Combinator α) :=
  fun _ filled => Draw.always_pure (products_cover filled)

/-- The built-in combinators that draw nothing leave nothing out. -/
theorem combinator_covers {name : Option String} {combine : Combinator α}
    (found : builtins.combinator name = .ok combine) (settled : name ≠ some "random") :
    Covers combine := by
  rcases combinator_cases found with ⟨rfl, _⟩ | ⟨rfl, _⟩ | ⟨_, named⟩
  · exact diagonal_covers
  · exact product_covers
  · exact absurd named settled

end Strategy

namespace Expansion

open Strategy

variable {α : Type} {registry : Registry α}

/-! ## Runs that succeed -/

/-- The strategies that a block names are registered. -/
def Knows (registry : Registry α) (info : BlockInfo) : Prop :=
  (∃ compose, composition registry info.kind info.strategies = .ok compose) ∧
    ∃ finish, finishing registry info.strategies = .ok finish

/-- The blocks of a tree find all the strategies they name, and these are built-in ones. -/
structure Equipped (registry : Registry α) (tree : Tree α) : Prop where
  builtin : UsesBuiltins registry tree
  known : tree.EachBlock (Knows registry)

theorem expandAll_succeeds {children : List (Tree α)}
    (each : ∀ child ∈ children, ∀ engine, ∃ streams after,
      expand registry child engine = (.ok streams, after)) :
    ∀ engine, ∃ alternatives after,
      expandAll registry children engine = (.ok alternatives, after) := by
  induction children with
  | nil => exact fun engine => ⟨[], engine, rfl⟩
  | cons child rest ih =>
      intro engine
      obtain ⟨streams, middle, here⟩ := each child (by simp) engine
      obtain ⟨others, after, there⟩ :=
        ih (fun other member => each other (by simp [member])) middle
      exact ⟨streams :: others, after, Computation.bind_ok_iff.mpr ⟨streams, middle, here,
        Computation.bind_ok_iff.mpr ⟨others, after, there, rfl⟩⟩⟩

/-- Only a strategy that is not registered makes expansion fail. -/
theorem expand_succeeds (tree : Tree α) : tree.EachBlock (Knows registry) →
    ∀ engine, ∃ streams after, expand registry tree engine = (.ok streams, after) := by
  induction tree using Tree.induction with
  | leaf call => exact fun _ engine => ⟨[Stream.single call], engine, rfl⟩
  | block info children ih =>
      intro known engine
      obtain ⟨⟨compose, composed⟩, finish, finishes⟩ := known.here
      obtain ⟨alternatives, middle, further⟩ := expandAll_succeeds
        (fun child member => ih child member (known.child child member)) engine
      rw [expand_block_run composed further]
      simp only [locating_ok_iff, finished, finishes]
      exact ⟨_, _, rfl⟩

/-! ## What a block emits of its children -/

/-- What a free block composes emits every alternative of every child. -/
theorem freely_covers {combine : Combinator α} {permute : Permutator α}
    {compose : Compositor α} (covers : Covers combine) (permutes : Permutes permute)
    (interleaves : Interleaves compose) {alternatives : List (List (Stream α))}
    (filled : ∀ choices ∈ alternatives, choices ≠ []) :
    Draw.Always (freely combine permute compose alternatives) (fun streams =>
      alternatives.flatten.flatMap Stream.emissions ⊆ streams.flatMap Stream.emissions) := by
  refine Draw.always_bind (covers alternatives filled) (fun combinations covered => ?_)
  refine (Draw.always_mapM (R := fun combination stream =>
    Interleaving (combination.map Stream.units) stream.units) ?_).mono ?_
  · intro combination _
    refine Draw.always_bind (permutes combination) (fun ordered same => ?_)
    exact (interleaves ordered).mono (fun stream made => made.perm (same.map Stream.units))
  · intro streams made emission emitted
    obtain ⟨choice, member, inside⟩ := List.mem_flatMap.mp emitted
    obtain ⟨choices, listed, chosen⟩ := List.mem_flatten.mp member
    obtain ⟨combination, combined, held⟩ := covered choices listed choice chosen
    obtain ⟨stream, composed, merged⟩ := Paired.exists_partner made.flip combination combined
    obtain ⟨unit, unit_of_choice, in_unit⟩ := List.mem_flatten.mp inside
    have among : unit ∈ (combination.map Stream.units).flatten :=
      List.mem_flatten.mpr ⟨choice.units, List.mem_map.mpr ⟨choice, held, rfl⟩, unit_of_choice⟩
    have kept : unit ∈ stream.units := merged.perm_flatten.mem_iff.mpr among
    exact List.mem_flatMap.mpr ⟨stream, composed, List.mem_flatten.mpr ⟨unit, kept, in_unit⟩⟩

/-- A block that is not free emits what its children emit, in their order. -/
theorem composition_emits {registry : Registry α} {kind : BlockKind} {strategies : StrategySet}
    {compose : Composition α} (divisible : kind ≠ .free)
    (composed : composition registry kind strategies = .ok compose)
    (alternatives : List (List (Stream α))) :
    Draw.Always (compose alternatives) (fun streams =>
      streams.flatMap Stream.emissions = alternatives.flatten.flatMap Stream.emissions) := by
  cases kind with
  | sequence =>
      cases composed
      refine Draw.always_pure ?_
      rw [List.flatMap_singleton, Stream.emissions_concat]
  | atomic =>
      cases composed
      refine Draw.always_pure ?_
      rw [List.flatMap_singleton, emissions_toAtomic, Stream.emissions_concat]
  | iterate =>
      cases composed
      exact Draw.always_pure rfl
  | free => exact absurd rfl divisible

theorem composition_covers {kind : BlockKind} {strategies : StrategySet}
    {compose : Composition α} (composed : composition builtins kind strategies = .ok compose)
    (settled : kind = .free → strategies.combinator ≠ some "random")
    {alternatives : List (List (Stream α))}
    (filled : kind = .free → ∀ choices ∈ alternatives, choices ≠ []) :
    Draw.Always (compose alternatives) (fun streams =>
      alternatives.flatten.flatMap Stream.emissions ⊆ streams.flatMap Stream.emissions) := by
  by_cases free : kind = .free
  · subst free
    obtain ⟨combine, permute, compose, combines, permutes, composes, rfl⟩ :=
      composition_free_ok composed
    exact freely_covers (combinator_covers combines (settled rfl))
      (builtins_lawful.permutators _ (mem_of_lookup permutes))
      (builtins_lawful.compositors _ (mem_of_lookup composes)) (filled rfl)
  · refine (composition_emits free composed alternatives).mono (fun streams same => ?_)
    rw [same]
    exact List.Subset.refl _

/-- What happens to composed streams changes at most the order of what they emit. -/
theorem finishing_emissions_perm {strategies : StrategySet}
    {finish : List (Stream α) → Draw (List (Stream α))}
    (found : finishing builtins strategies = .ok finish) (streams : List (Stream α)) :
    Draw.Always (finish streams) (fun made =>
      (made.flatMap Stream.emissions).Perm (streams.flatMap Stream.emissions)) := by
  refine (finishing_perm builtins_lawful found streams).mono (fun made same => ?_)
  rw [← flatten_units, ← flatten_units]
  exact same.flatten

/-! ## Every call is emitted -/

/-- The children of free blocks have streams, when the tree is expanded from an engine. -/
def FreeChildrenFilled (registry : Registry α) (tree : Tree α) (engine : Engine) : Prop :=
  ∀ place info children number, tree.node? place = some (.block info children) →
    info.kind = .free → number < children.length →
    streamsAt registry tree engine (place ++ [number]) ≠ some []

/-- The streams below a child are those of the child's own run. -/
theorem streamsAt_below {info : BlockInfo} {children : List (Tree α)} {engine start : Engine}
    {number : Nat} {child : Tree α} {compose : Composition α} {earlier : List (List (Stream α))}
    (composes : composition registry info.kind info.strategies = .ok compose)
    (found : children[number]? = some child)
    (before : expandAll registry (children.take number) engine = (.ok earlier, start))
    (place : List Nat) :
    streamsAt registry (.block info children) engine (number :: place) =
      streamsAt registry child start place := by
  simp only [streamsAt, reach, composes, found, before]

theorem FreeChildrenFilled.child {info : BlockInfo} {children : List (Tree α)}
    {engine start : Engine} {number : Nat} {child : Tree α} {compose : Composition α}
    {earlier : List (List (Stream α))}
    (filled : FreeChildrenFilled registry (.block info children) engine)
    (composes : composition registry info.kind info.strategies = .ok compose)
    (found : children[number]? = some child)
    (before : expandAll registry (children.take number) engine = (.ok earlier, start)) :
    FreeChildrenFilled registry child start := by
  intro place inner below index here free inside
  rw [← streamsAt_below composes found before]
  refine filled (number :: place) inner below index ?_ free inside
  simpa [Tree.node?, found] using here

/-- If no free block draws its combinations or has a child without streams, every call is
emitted. -/
theorem calls_emitted (tree : Tree α) :
    ∀ {engine after : Engine} {streams : List (Stream α)},
      tree.EachBlock (fun info => info.kind = .free →
        info.strategies.combinator ≠ some "random") →
      FreeChildrenFilled builtins tree engine →
      expand builtins tree engine = (.ok streams, after) →
      tree.calls ⊆ streams.flatMap Stream.emissions := by
  induction tree using Tree.induction with
  | leaf call =>
      intro engine after streams _ _ expanded
      cases expanded
      simp [Stream.single, Stream.emissions, Tree.calls]
  | block info children ih =>
      intro engine after streams settled filled expanded call member
      obtain ⟨compose, finish, alternatives, middle, random, composes, finishes, further, rfl⟩ :=
        expand_block_ok expanded
      have each_filled : info.kind = .free → ∀ choices ∈ alternatives, choices ≠ [] := by
        rintro free choices given rfl
        obtain ⟨number, child, earlier, start, finish, found, before, run⟩ :=
          expandAll_mem further [] given
        refine filled [] info children number rfl free
          (List.getElem?_eq_some_iff.mp found).1 ?_
        rw [List.nil_append, streamsAt_below composes found before]
        simp [streamsAt, reach, run, Except.toOption]
      obtain ⟨number, child, found, inside⟩ := Tree.mem_callsOf member
      obtain ⟨choices, earlier, start, stop, listed, before, run⟩ := expandAll_at further found
      have held := List.mem_of_getElem? found
      have emitted := ih child held (settled.child child held)
        (filled.child composes found before) run inside
      have among : call ∈ alternatives.flatten.flatMap Stream.emissions := by
        obtain ⟨stream, chosen, emitted⟩ := List.mem_flatMap.mp emitted
        exact List.mem_flatMap.mpr ⟨stream,
          List.mem_flatten.mpr ⟨choices, List.mem_of_getElem? listed, chosen⟩, emitted⟩
      have composed := composition_covers composes settled.here each_filled middle.random among
      exact (finishing_emissions_perm finishes _ random).mem_iff.mpr composed

/-! ## Every call is emitted once -/

section Related

variable {R : List α → List α → Prop} (same : ∀ list, R list list)
  (chain : ∀ {first second third}, R first second → R second third → R first third)
  (append : ∀ {first second third fourth}, R first second → R third fourth →
    R (first ++ third) (second ++ fourth))

include same append in
theorem expandAll_related {children : List (Tree α)}
    (each : ∀ child ∈ children, ∀ {engine after streams},
      expand registry child engine = (.ok streams, after) →
      R (streams.flatMap Stream.emissions) child.calls) :
    ∀ {engine after alternatives},
      expandAll registry children engine = (.ok alternatives, after) →
      R (alternatives.flatten.flatMap Stream.emissions) (Tree.callsOf children) := by
  induction children with
  | nil =>
      intro engine after alternatives expanded
      cases expanded
      exact same []
  | cons child rest ih =>
      intro engine after alternatives expanded
      obtain ⟨streams, middle, here, expanded⟩ := Computation.bind_ok_iff.mp expanded
      obtain ⟨others, last, there, expanded⟩ := Computation.bind_ok_iff.mp expanded
      cases expanded
      rw [List.flatten_cons, List.flatMap_append, Tree.callsOf]
      exact append (each child (by simp) here)
        (ih (fun other member => each other (by simp [member])) there)

include same chain append in
/-- A relation that putting lists together respects holds between what a tree without free
blocks emits and its calls, if it survives what happens to composed streams. -/
theorem emissions_related {P : BlockInfo → Prop}
    (finishes : ∀ info finish (streams : List (Stream α)), P info →
      finishing builtins info.strategies = .ok finish →
      Draw.Always (finish streams) (fun made =>
        R (made.flatMap Stream.emissions) (streams.flatMap Stream.emissions)))
    (tree : Tree α) : ∀ {engine after : Engine} {streams : List (Stream α)},
      tree.EachBlock (fun info => info.kind ≠ .free) → tree.EachBlock P →
      expand builtins tree engine = (.ok streams, after) →
      R (streams.flatMap Stream.emissions) tree.calls := by
  induction tree using Tree.induction with
  | leaf call =>
      intro engine after streams _ _ expanded
      cases expanded
      exact same [call]
  | block info children ih =>
      intro engine after streams divisible such expanded
      obtain ⟨compose, finish, alternatives, middle, random, composes, found, further, rfl⟩ :=
        expand_block_ok expanded
      have composed := composition_emits divisible.here composes alternatives middle.random
      have finished := finishes info finish (compose alternatives middle.random).1 such.here found
        random
      rw [show _ = _ from composed] at finished
      exact chain finished (expandAll_related same append (fun child member _ _ _ =>
        ih child member (divisible.child child member) (such.child child member)) further)

end Related

theorem calls_permuted (tree : Tree α) {engine after : Engine} {streams : List (Stream α)}
    (divisible : tree.EachBlock (fun info => info.kind ≠ .free))
    (expanded : expand builtins tree engine = (.ok streams, after)) :
    (streams.flatMap Stream.emissions).Perm tree.calls :=
  emissions_related List.Perm.refl List.Perm.trans List.Perm.append
    (fun _ _ streams _ found => finishing_emissions_perm found streams) tree divisible
    (P := fun _ => True) (fun _ _ _ _ => trivial) expanded

theorem calls_in_order (tree : Tree α) {engine after : Engine} {streams : List (Stream α)}
    (divisible : tree.EachBlock (fun info => info.kind ≠ .free))
    (settled : tree.EachBlock (fun info => info.strategies.rearranger ≠ some "random"))
    (expanded : expand builtins tree engine = (.ok streams, after)) :
    streams.flatMap Stream.emissions = tree.calls := by
  refine emissions_related (fun _ => rfl) Eq.trans (fun here there => by rw [here, there])
    (fun info finish streams plain found => ?_) tree divisible settled expanded
  obtain ⟨made, drawn, same⟩ := finishing_following found streams plain
  rw [drawn]
  exact Draw.always_pure same

/-! ## The whole tree -/

theorem flatMap_emissions_map {β : Type} (f : α → β) (streams : List (Stream α)) :
    (streams.map (Stream.map f)).flatMap Stream.emissions =
      (streams.flatMap Stream.emissions).map f := by
  simp only [List.flatMap_map, List.map_flatMap, emissions_map]

/-- What the streams of a tree have of its calls, when it is expanded from an engine. -/
structure Conserves (registry : Registry α) (tree : Tree α) (engine : Engine)
    (streams : List (Stream α)) : Prop where
  nothing_invented : ∀ stream ∈ streams, ∀ emission ∈ stream.emissions, emission ∈ tree.calls
  nothing_lost :
    tree.EachBlock (fun info => info.kind = .free →
      info.strategies.combinator ≠ some "random") →
    FreeChildrenFilled registry tree engine →
    tree.calls.Subperm (streams.flatMap Stream.emissions)
  once : tree.EachBlock (fun info => info.kind ≠ .free) →
    (streams.flatMap Stream.emissions).Perm tree.calls
  in_order : tree.EachBlock (fun info => info.kind ≠ .free) →
    tree.EachBlock (fun info => info.strategies.rearranger ≠ some "random") →
    streams.flatMap Stream.emissions = tree.calls

theorem FreeChildrenFilled.traced {tree : Tree α} {engine : Engine}
    (uses : UsesBuiltins registry tree) (filled : FreeChildrenFilled registry tree engine) :
    FreeChildrenFilled builtins tree.traced engine := by
  intro place info children number there free below empty
  rw [Tree.traced, Tree.node?_tracedFrom, Option.map_eq_some_iff] at there
  obtain ⟨node, here, traced⟩ := there
  cases node with
  | leaf call => cases traced
  | block own inner =>
      cases traced
      have counted : number < inner.length := by rwa [Tree.length_tracedAll] at below
      refine filled place _ inner number here free counted ?_
      · have mapped := streamsAt_map uses.blindOn engine (place ++ [number])
        rw [Tree.map_traced, empty] at mapped
        exact mapped

/-- **Expansion loses and invents nothing.**  A tree with built-in strategies expands from any
engine, and its streams emit calls of the tree only.  If no free block draws its combinations
and no child of a free block is without streams, every call is emitted, equal ones as often as
they are declared at least.  A tree without free blocks has each call emitted once, in the order
of declaration unless streams are shuffled. -/
theorem expansion_conserves (registry : Registry α) (tree : Tree α) (engine : Engine)
    (equipped : Equipped registry tree) :
    ∃ streams after, expand registry tree engine = (.ok streams, after) ∧
      Conserves registry tree engine streams := by
  obtain ⟨streams, after, expanded⟩ := expand_succeeds tree equipped.known engine
  -- the traced tree is expanded in the same way, and its calls are all different
  have mapped := congrFun (expand_map tree.traced equipped.builtin.blindOn) engine
  rw [Tree.map_traced, map_run, expanded] at mapped
  rcases run : expand builtins tree.traced engine with ⟨fault | traces, last⟩
  · rw [run] at mapped
    cases mapped
  rw [run] at mapped
  cases mapped
  have emissions : (traces.map (Stream.map Prod.snd)).flatMap Stream.emissions =
      (traces.flatMap Stream.emissions).map Prod.snd := flatMap_emissions_map _ _
  refine ⟨_, _, expanded, ?_, ?_, ?_, ?_⟩
  · intro stream member emission emitted
    obtain ⟨trace, among, rfl⟩ := List.mem_map.mp member
    rw [emissions_map] at emitted
    obtain ⟨traced, held, rfl⟩ := List.mem_map.mp emitted
    obtain ⟨unit, inside, held⟩ := List.mem_flatten.mp held
    rw [← Tree.calls_traced]
    exact List.mem_map_of_mem
      (expand_calls builtins_lawful _ run trace among unit inside traced held)
  · intro settled filled
    have subset := calls_emitted tree.traced settled.traced (filled.traced equipped.builtin) run
    obtain ⟨kept, same, sublist⟩ := (Tree.nodup_calls_traced tree).subperm subset
    rw [emissions, ← Tree.calls_traced]
    exact ⟨kept.map Prod.snd, same.map Prod.snd, sublist.map Prod.snd⟩
  · intro divisible
    rw [emissions, ← Tree.calls_traced]
    exact (calls_permuted tree.traced divisible.traced run).map Prod.snd
  · intro divisible settled
    rw [emissions, ← Tree.calls_traced, calls_in_order tree.traced divisible.traced settled.traced run]

/-- A free block whose first child has two alternatives. -/
def choiceBeside : Tree Nat :=
  .block { id := BlockId.root, kind := .free, strategies := { compositor := some "rotation" } }
    [.block { id := BlockId.root.child 0, kind := .iterate } [.leaf 1, .leaf 2], .leaf 3]

/-- A sequence around an iteration. -/
def choiceInside : Tree Nat :=
  .block { id := BlockId.root, kind := .sequence }
    [.leaf 1, .block { id := BlockId.root.child 1, kind := .iterate } [.leaf 2, .leaf 1]]

theorem choiceBeside_equipped : Equipped builtins choiceBeside where
  builtin := uses_builtins choiceBeside
  known := by
    simp only [choiceBeside, Tree.eachBlock_block, List.forall_mem_cons, Tree.eachBlock_leaf]
    exact ⟨⟨⟨_, rfl⟩, _, rfl⟩, ⟨⟨⟨_, rfl⟩, _, rfl⟩, by simp⟩, by simp⟩

theorem choiceInside_equipped : Equipped builtins choiceInside where
  builtin := uses_builtins choiceInside
  known := by
    simp only [choiceInside, Tree.eachBlock_block, List.forall_mem_cons, Tree.eachBlock_leaf]
    exact ⟨⟨⟨_, rfl⟩, _, rfl⟩, trivial, ⟨⟨⟨_, rfl⟩, _, rfl⟩, by simp⟩, by simp⟩

theorem choiceBeside_filled : FreeChildrenFilled builtins choiceBeside (Engine.ofSeed 7) := by
  intro place info children number here free below empty
  match place with
  | [] =>
      cases here
      match number with
      | 0 => cases empty
      | 1 => cases empty
  | 0 :: [] =>
      cases here
      cases free
  | 0 :: 0 :: rest => cases rest <;> cases here
  | 0 :: 1 :: rest => cases rest <;> cases here
  | 1 :: rest => cases rest <;> cases here

/-- Both alternatives are emitted with the call beside them; equal calls in order stay two. -/
theorem expansion_conserves_alternatives :
    (∃ streams after, expand builtins choiceBeside (Engine.ofSeed 7) = (.ok streams, after) ∧
      [1, 2, 3].Subperm (streams.flatMap Stream.emissions)) ∧
    ∃ streams after, expand builtins choiceInside (Engine.ofSeed 7) = (.ok streams, after) ∧
      streams.flatMap Stream.emissions = [1, 2, 1] := by
  constructor
  · obtain ⟨streams, after, expanded, conserves⟩ :=
      expansion_conserves builtins choiceBeside (Engine.ofSeed 7) choiceBeside_equipped
    have kept := conserves.nothing_lost (by simp [choiceBeside]) choiceBeside_filled
    exact ⟨streams, after, expanded, kept⟩
  · obtain ⟨streams, after, expanded, conserves⟩ :=
      expansion_conserves builtins choiceInside (Engine.ofSeed 7) choiceInside_equipped
    have kept := conserves.in_order (by simp [choiceInside]) (by simp [choiceInside])
    exact ⟨streams, after, expanded, kept⟩

end Expansion
end TestProgram
