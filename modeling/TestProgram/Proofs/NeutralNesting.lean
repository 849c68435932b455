/-
# TestProgram.Proofs.NeutralNesting -- nesting that changes nothing

A block without strategies of its own can often be left out.  A sequence inside a sequence or an
atomic block only says once more that its children follow each other, an iterate block inside one
that keeps or joins its streams says nothing that the outer one does not, and an atomic block
inside an atomic one is merged anyway.  And a free block without strategies is a sequence if there
is one way only to combine its children.  `Refactored` says that one of these changes was made, at
any place of a tree.

Two trees are told apart by what expansion makes of them (`produced`): their streams, or what went
wrong, and the state of the random source afterwards.  Where a fault is located and what the
journal says is left out, since both name the blocks that were left out.  `neutral_nesting` says
that a change of this kind is not seen, in whatever context it was made.
-/
import TestProgram.Proofs.Composition
import TestProgram.Proofs.InStep
import TestProgram.Proofs.Likeness

namespace TestProgram

set_option autoImplicit false

/-! ## Faults without their locations -/

/-- The fault as it is wherever it was met. -/
def Fault.placeless (fault : Fault) : Fault :=
  { fault with location := none }

theorem Fault.placeless_locate? (fault : Fault) (location : Option Location) :
    (fault.locate? location).placeless = fault.placeless := by
  cases location <;> rfl

namespace Generation

variable {α β : Type}

/-- The same computation, with faults that do not say where they were met. -/
def placeless (body : Generation α) : Generation α := fun engine =>
  let (outcome, after) := body engine
  (outcome.mapError Fault.placeless, after)

theorem placeless_bind (first : Generation α) (next : α → Generation β) :
    placeless (first >>= next) = placeless first >>= fun value => placeless (next value) := by
  funext engine
  rw [placeless, Computation.bind_run, Computation.bind_run, placeless]
  rcases first engine with ⟨_ | _, _⟩ <;> rfl

theorem placeless_locating (location : Option Location) (body : Generation α) :
    placeless (locating location body) = placeless body := by
  funext engine
  rw [placeless, locating, placeless]
  rcases body engine with ⟨fault | _, _⟩
  · simp only [Except.mapError, Fault.placeless_locate?]
  · rfl

theorem placeless_ok_iff {body : Generation α} {engine after : Engine} {value : α} :
    placeless body engine = (.ok value, after) ↔ body engine = (.ok value, after) := by
  rw [placeless]
  rcases body engine with ⟨_ | _, _⟩
  · constructor <;> intro failed <;> cases failed
  · exact Iff.rfl

theorem placeless_pure (value : α) : placeless (pure value : Generation α) = pure value := rfl

theorem placeless_draw (draw : Draw α) : placeless (Generation.draw draw) = Generation.draw draw :=
  rfl

theorem draw_pure (value : α) : Generation.draw (pure value) = pure value := rfl

/-- Nobody sees what is remarked but who reads the journal. -/
theorem remark_unseen (made : Remark) :
    Computation.InStep Engine.Alike Eq (remark made) (pure ()) :=
  fun _ _ alike => ⟨.ok rfl, alike⟩

theorem placeless_ofExcept_ok (value : α) :
    placeless (Generation.ofExcept (.ok value)) = pure value := rfl

theorem placeless_remark (made : Remark) : placeless (remark made) = remark made := rfl

end Generation

namespace Expansion

open Generation (placeless)
open TestProgram.Computation (InStep)

variable {α : Type}

/-! ## Registries with the usual defaults -/

/-- A block that names no strategy gets the built-in ones, whatever else may be registered. -/
structure UsualDefaults (registry : Registry α) : Prop where
  combinator : registry.combinator none = .ok Strategy.diagonal
  permutator : registry.permutator none = .ok Strategy.identity
  compositor : registry.compositor none = .ok Strategy.catenation
  rearranger : registry.rearranger none = .ok Strategy.identity
  obfuscator : registry.obfuscator none = .ok Strategy.identity

theorem builtins_usualDefaults : UsualDefaults (Strategy.builtins : Registry α) := by
  constructor <;>
    simp [Registry.combinator, Registry.permutator, Registry.compositor, Registry.rearranger,
      Registry.obfuscator, Registry.lookup, Strategy.builtins, KeyMap.ofList,
      StrategyOption.default, KeyMap.find?_insert_self, KeyMap.find?_insert_of_ne]

/-- The streams of a block without strategies are left as they are. -/
theorem UsualDefaults.finishing {registry : Registry α} (defaults : UsualDefaults registry) :
    finishing registry {} = .ok (fun streams => pure streams) := by
  simp only [Expansion.finishing, defaults.rearranger, defaults.obfuscator]
  refine congrArg Except.ok (funext fun streams => ?_)
  rw [Strategy.identity, pure_bind]
  exact (List.mapM_pure (f := id)).trans (by rw [List.map_id])

/-! ## What expansion makes of a tree -/

/-- The streams of a tree, or what went wrong, and the random source afterwards. -/
def produced (registry : Registry α) (tree : Tree α) (engine : Engine) :
    Except Fault (List (Stream α)) × Random :=
  let (outcome, after) := placeless (expand registry tree) engine
  (outcome, after.random)

section Runs

variable {β γ δ κ : Type} {V : β → γ → Prop} {W : δ → κ → Prop} {engine : Engine}

/-- From this engine the two computations come to the same, up to the journal. -/
def AlikeFrom (engine : Engine) (V : β → γ → Prop) (here : Generation β) (there : Generation γ) :
    Prop :=
  Strategy.Agree V (here engine).1 (there engine).1 ∧
    Engine.Alike (here engine).2 (there engine).2

theorem alikeFrom_of_inStep {here : Generation β} {there : Generation γ}
    (together : InStep Engine.Alike V here there) : AlikeFrom engine V here there :=
  together engine engine rfl

/-- Whatever is done in step later keeps what two runs have in common. -/
theorem AlikeFrom.bind {here : Generation β} {there : Generation γ} {next : β → Generation δ}
    {further : γ → Generation κ} (together : AlikeFrom engine V here there)
    (later : ∀ value other, V value other →
      InStep Engine.Alike W (next value) (further other)) :
    AlikeFrom engine W (here >>= next) (there >>= further) := by
  obtain ⟨agree, alike⟩ := together
  rw [AlikeFrom, Computation.bind_run, Computation.bind_run]
  revert agree alike
  rcases here engine with ⟨outcome, after⟩
  rcases there engine with ⟨other, last⟩
  rintro (⟨related⟩ | ⟨fault⟩) alike
  · exact later _ _ related after last alike
  · exact ⟨.error fault, alike⟩

/-- Two runs that begin alike part after their common beginning, if at all. -/
theorem AlikeFrom.after {first : Generation δ} {here : δ → Generation β}
    {there : δ → Generation γ}
    (parted : ∀ value after, first engine = (.ok value, after) →
      AlikeFrom after V (here value) (there value)) :
    AlikeFrom engine V (first >>= here) (first >>= there) := by
  rw [AlikeFrom, Computation.bind_run, Computation.bind_run]
  rcases run : first engine with ⟨fault | value, after⟩
  · exact ⟨.error fault, rfl⟩
  · exact parted value after run

end Runs

variable (registry : Registry α)

/-- Expansion from this engine makes the same of both trees. -/
def Indistinct (engine : Engine) (tree other : Tree α) : Prop :=
  AlikeFrom engine Eq (placeless (expand registry tree)) (placeless (expand registry other))

variable {registry} {engine : Engine}

theorem Indistinct.produced {tree other : Tree α} (same : Indistinct registry engine tree other) :
    produced registry tree engine = produced registry other engine := by
  obtain ⟨agree, alike⟩ := same
  have outcomes : ∀ {here there : Except Fault (List (Stream α))},
      Strategy.Agree Eq here there → here = there := by
    rintro _ _ (⟨rfl⟩ | ⟨fault⟩) <;> rfl
  exact Prod.ext (outcomes agree) alike

theorem finished_inStep {info other : BlockInfo} (same : other.strategies = info.strategies)
    (streams : List (Stream α)) :
    InStep Engine.Alike Eq (placeless (finished registry info streams))
      (placeless (finished registry other streams)) := by
  simp only [finished, Generation.placeless_bind, Generation.placeless_draw,
    Generation.placeless_remark, Generation.placeless_pure, same]
  refine InStep.bind (V := Eq) (fun _ _ alike => ⟨Agree.refl _, alike⟩) ?_
  rintro finish _ rfl
  refine InStep.bind (Generation.draw_inStep (fun _ => ⟨rfl, rfl⟩)) ?_
  rintro made _ rfl
  exact (Generation.remark_inStep _ _).bind (fun _ _ _ => Computation.inStep_pure rfl)

mutual

/-- Expansion draws the same whatever the journal says. -/
theorem expand_inStep : ∀ tree : Tree α,
    InStep Engine.Alike Eq (placeless (expand registry tree)) (placeless (expand registry tree))
  | .leaf _ => Computation.inStep_pure rfl
  | .block info children => by
      rw [expand, Generation.placeless_locating]
      simp only [Generation.placeless_bind, Generation.placeless_draw]
      refine InStep.bind (V := Eq) (fun _ _ alike => ⟨Agree.refl _, alike⟩) ?_
      rintro compose _ rfl
      refine (expandAll_inStep children).bind ?_
      rintro alternatives _ rfl
      refine InStep.bind (Generation.draw_inStep (fun _ => ⟨rfl, rfl⟩)) ?_
      rintro streams _ rfl
      exact finished_inStep rfl streams

theorem expandAll_inStep : ∀ children : List (Tree α),
    InStep Engine.Alike Eq (placeless (expandAll registry children))
      (placeless (expandAll registry children))
  | [] => Computation.inStep_pure rfl
  | child :: rest => by
      simp only [expandAll, Generation.placeless_bind, Generation.placeless_pure]
      refine (expand_inStep child).bind ?_
      rintro streams _ rfl
      refine (expandAll_inStep rest).bind ?_
      rintro others _ rfl
      exact Computation.inStep_pure rfl

end

/-- Blocks whose children come to compositions of the same streams are not told apart. -/
theorem block_indistinct {info other : BlockInfo} {children others : List (Tree α)}
    {V : List (List (Stream α)) → List (List (Stream α)) → Prop}
    {compose counterpart : Composition α} (same : other.strategies = info.strategies)
    (composes : composition registry info.kind info.strategies = .ok compose)
    (also_composes : composition registry other.kind other.strategies = .ok counterpart)
    (alternatives : AlikeFrom engine V (placeless (expandAll registry children))
      (placeless (expandAll registry others)))
    (composed : ∀ here there, V here there → compose here = counterpart there) :
    Indistinct registry engine (.block info children) (.block other others) := by
  rw [Indistinct, expand, expand, Generation.placeless_locating, Generation.placeless_locating]
  simp only [Generation.placeless_bind, composes, also_composes,
    Generation.placeless_ofExcept_ok, pure_bind, Generation.placeless_draw]
  refine alternatives.bind (fun here there related => ?_)
  rw [composed here there related]
  refine InStep.bind (Generation.draw_inStep (fun _ => ⟨rfl, rfl⟩)) ?_
  rintro streams _ rfl
  exact finished_inStep same streams

theorem expandAll_append (children rest : List (Tree α)) :
    expandAll registry (children ++ rest) =
      expandAll registry children >>= fun here =>
        expandAll registry rest >>= fun there => pure (here ++ there) := by
  induction children with
  | nil => simp [expandAll]
  | cons child others ih =>
      simp only [List.cons_append, expandAll, ih, bind_assoc, pure_bind]

/-! ## A child that was replaced -/

/-- Children behind the same ones and before the same ones. -/
theorem expandAll_between {before after here there : List (Tree α)}
    {V : List (List (Stream α)) → List (List (Stream α)) → Prop}
    (parted : ∀ alternatives reached,
      expandAll registry before engine = (.ok alternatives, reached) →
      AlikeFrom reached V (placeless (expandAll registry here))
        (placeless (expandAll registry there))) :
    AlikeFrom engine
      (fun made other => ∃ first middle counterpart last, V middle counterpart ∧
        made = first ++ (middle ++ last) ∧ other = first ++ (counterpart ++ last))
      (placeless (expandAll registry (before ++ (here ++ after))))
      (placeless (expandAll registry (before ++ (there ++ after)))) := by
  simp only [expandAll_append, Generation.placeless_bind, Generation.placeless_pure, bind_assoc,
    pure_bind]
  refine AlikeFrom.after (fun first reached run => ?_)
  refine (parted first reached ?_).bind (fun middle counterpart related => ?_)
  · exact Generation.placeless_ok_iff.mp run
  · refine (expandAll_inStep after).bind ?_
    rintro last _ rfl
    exact Computation.inStep_pure ⟨first, middle, counterpart, last, related, rfl, rfl⟩

/-! ## Blocks that dissolve -/

/-- How a block that draws nothing puts the streams of its children together. -/
def gather : BlockKind → List (List (Stream α)) → List (Stream α)
  | .iterate, alternatives => alternatives.flatten
  | .atomic, alternatives => [(Stream.concat alternatives.flatten).toAtomic]
  | .sequence, alternatives | .free, alternatives => [Stream.concat alternatives.flatten]

theorem gather_composition {kind : BlockKind} (bound : kind ≠ .free)
    (strategies : StrategySet) :
    composition registry kind strategies = .ok (fun made => pure (gather kind made)) := by
  cases kind with
  | free => exact absurd rfl bound
  | sequence | iterate | atomic => rfl

/-- The kinds of blocks whose children may as well stand where the block stands. -/
def dissolves : BlockKind → (outer : BlockKind) → Bool
  | .sequence, .sequence | .sequence, .atomic => true
  | .iterate, .iterate | .iterate, .sequence | .iterate, .atomic => true
  | .atomic, .atomic => true
  | _, _ => false

theorem ne_free_of_dissolves {inner outer : BlockKind} (idle : dissolves inner outer = true) :
    inner ≠ .free ∧ outer ≠ .free := by
  revert idle
  cases inner <;> cases outer <;> decide

/-- Whatever is done to the units, the emissions stay what they are. -/
theorem gather_emissions (kind : BlockKind) (alternatives : List (List (Stream α))) :
    (gather kind alternatives).flatMap Stream.emissions =
      alternatives.flatten.flatMap Stream.emissions := by
  cases kind <;> simp [gather, Stream.emissions_concat, emissions_toAtomic]

theorem gather_units {kind : BlockKind} (divisible : kind ≠ .atomic)
    (alternatives : List (List (Stream α))) :
    (gather kind alternatives).flatMap Stream.units =
      alternatives.flatten.flatMap Stream.units := by
  cases kind with
  | atomic => exact absurd rfl divisible
  | sequence | iterate | free => simp [gather, concat_units]

/-- What the outer block makes of the streams of the inner one is what it makes of those of its
children. -/
theorem gather_dissolved {inner outer : BlockKind} (idle : dissolves inner outer = true)
    (first middle last : List (List (Stream α))) :
    gather outer (first ++ ([gather inner middle] ++ last)) =
      gather outer (first ++ (middle ++ last)) := by
  cases outer with
  | free => exact absurd rfl (ne_free_of_dissolves idle).2
  | iterate =>
      have inner_is : inner = .iterate := by
        revert idle
        cases inner <;> decide
      simp [inner_is, gather]
  | sequence =>
      have divisible : inner ≠ .atomic := by
        revert idle
        cases inner <;> decide
      have same := gather_units divisible middle
      refine congrArg (fun stream => [stream]) (Stream.ext ?_)
      simp only [concat_units, List.flatten_append, List.flatMap_append, List.flatten_singleton,
        same]
  | atomic =>
      have same := gather_emissions inner middle
      refine congrArg (fun emissions => [Stream.ofUnits [emissions]]) ?_
      simp only [Stream.emissions_concat, List.flatten_append, List.flatMap_append,
        List.flatten_singleton, same]

/-- The streams of a block without strategies are those it gathers. -/
theorem plain_block_inStep (defaults : UsualDefaults registry) {info : BlockInfo}
    (bound : info.kind ≠ .free) (plain : info.strategies = {}) (children : List (Tree α)) :
    InStep Engine.Alike (fun streams alternatives => streams = gather info.kind alternatives)
      (placeless (expand registry (.block info children)))
      (placeless (expandAll registry children)) := by
  rw [expand, Generation.placeless_locating, ← bind_pure (placeless (expandAll registry children))]
  simp only [finished, Generation.placeless_bind, plain, gather_composition bound,
    defaults.finishing, Generation.placeless_ofExcept_ok, pure_bind, Generation.placeless_draw,
    Generation.placeless_remark, Generation.placeless_pure, Generation.draw_pure]
  refine (expandAll_inStep children).bind ?_
  rintro alternatives _ rfl
  exact InStep.before (Generation.remark_unseen _) (Computation.inStep_pure rfl)

/-- The children of an inner block may stand in its place. -/
theorem dissolved_indistinct (defaults : UsualDefaults registry) {outer inner : BlockInfo}
    (plain : inner.strategies = {}) (idle : dissolves inner.kind outer.kind = true)
    (before children after : List (Tree α)) :
    Indistinct registry engine (.block outer (before ++ ([.block inner children] ++ after)))
      (.block outer (before ++ (children ++ after))) := by
  obtain ⟨inner_bound, outer_bound⟩ := ne_free_of_dissolves idle
  have middles : InStep Engine.Alike (fun here there => here = [gather inner.kind there])
      (placeless (expandAll registry [.block inner children]))
      (placeless (expandAll registry children)) := by
    have inside := plain_block_inStep defaults inner_bound plain children
    simp only [expandAll, pure_bind, Generation.placeless_bind, Generation.placeless_pure]
    rw [← bind_pure (placeless (expandAll registry children))]
    exact inside.bind (fun streams middle made => Computation.inStep_pure (by rw [made]))
  refine block_indistinct rfl (gather_composition outer_bound _)
    (gather_composition outer_bound _)
    (expandAll_between (fun _ _ _ => alikeFrom_of_inStep middles)) ?_
  rintro _ _ ⟨first, _, middle, last, rfl, rfl, rfl⟩
  rw [gather_dissolved idle]

/-! ## One way to combine -/

open Strategy

theorem choices?_singles (streams : List (Stream α)) :
    choices? (streams.map (fun stream => [stream])) =
      some (streams.map (fun stream => (stream, []))) := by
  induction streams with
  | nil => rfl
  | cons stream rest ih => rw [List.map_cons, choices?_cons, ih, List.map_cons, Option.map_some]

theorem longest_singles {streams : List (Stream α)} (some_stream : streams ≠ []) :
    longest (streams.map (fun stream => (stream, []))) = 1 := by
  induction streams with
  | nil => exact absurd rfl some_stream
  | cons stream rest ih =>
      rw [List.map_cons, longest_cons]
      cases rest with
      | nil => rfl
      | cons => rw [ih (by simp)]; rfl

theorem exists_singles {alternatives : List (List (Stream α))}
    (one : ∀ streams ∈ alternatives, streams.length = 1) :
    ∃ streams : List (Stream α), alternatives = streams.map (fun stream => [stream]) := by
  refine ⟨alternatives.flatten, ?_⟩
  induction alternatives with
  | nil => rfl
  | cons streams rest ih =>
      obtain ⟨stream, rfl⟩ := List.length_eq_one_iff.mp (one streams (by simp))
      rw [List.flatten_cons, List.singleton_append, List.map_cons,
        ← ih (fun others member => one others (by simp [member]))]

/-- Where every child has one alternative, the diagonal takes these, and nothing is left to
choose. -/
theorem freely_singles {alternatives : List (List (Stream α))} (some_child : alternatives ≠ [])
    (one : ∀ streams ∈ alternatives, streams.length = 1) :
    freely diagonal identity catenation alternatives =
      pure [Stream.concat alternatives.flatten] := by
  obtain ⟨streams, rfl⟩ := exists_singles one
  have some_stream : streams ≠ [] := by simpa using some_child
  have step : (lockstep (streams.map (fun stream => ((stream, []) : Choices (Stream α)))) 0) =
      streams := by
    rw [lockstep, List.map_map]
    exact List.map_id streams
  have joined : (streams.map (fun stream => [stream])).flatten = streams := by
    rw [← List.flatMap_def, List.flatMap_singleton']
  simp only [freely, diagonal, choices?_singles, longest_singles some_stream, pure_bind,
    List.range_one, List.map_cons, List.map_nil, step, joined, List.mapM_cons, List.mapM_nil,
    identity, catenation]

/-- A free block is a sequence, if there is one way only to combine its children. -/
theorem ordered_indistinct (defaults : UsualDefaults registry) {info : BlockInfo}
    {children : List (Tree α)} (free : info.kind = .free) (plain : info.strategies = {})
    (some_child : children ≠ [])
    (one : ∀ alternatives after, expandAll registry children engine = (.ok alternatives, after) →
      ∀ streams ∈ alternatives, streams.length = 1) :
    Indistinct registry engine (.block info children)
      (.block { info with kind := .sequence } children) := by
  have composes : composition registry info.kind info.strategies =
      .ok (freely diagonal identity catenation) := by
    rw [free, plain]
    exact composition_free defaults.combinator defaults.permutator defaults.compositor
  have alternatives : AlikeFrom engine
      (fun here there => here = there ∧ there ≠ [] ∧ ∀ streams ∈ there, streams.length = 1)
      (placeless (expandAll registry children)) (placeless (expandAll registry children)) := by
    rw [← bind_pure (placeless (expandAll registry children))]
    refine AlikeFrom.after (fun found after run => ?_)
    have expanded := Generation.placeless_ok_iff.mp run
    refine alikeFrom_of_inStep (Computation.inStep_pure ⟨rfl, ?_, one found after expanded⟩)
    exact List.length_pos_iff.mp
      (expandAll_length expanded ▸ List.length_pos_iff.mpr some_child)
  refine block_indistinct rfl composes (gather_composition (by simp) _) alternatives ?_
  rintro _ there ⟨rfl, some_alternative, single⟩
  exact freely_singles some_alternative single

/-! ## Refactoring -/

/-- One block less, or one that is a sequence now, at some place of a tree that is expanded from
this engine. -/
inductive Refactored (registry : Registry α) : Engine → Tree α → Tree α → Prop
  | dissolved {engine : Engine} {outer inner : BlockInfo} {before children after : List (Tree α)}
      (plain : inner.strategies = {}) (idle : dissolves inner.kind outer.kind = true) :
      Refactored registry engine (.block outer (before ++ .block inner children :: after))
        (.block outer (before ++ (children ++ after)))
  | ordered {engine : Engine} {info : BlockInfo} {children : List (Tree α)}
      (free : info.kind = .free) (plain : info.strategies = {}) (some_child : children ≠ [])
      (one : ∀ alternatives after,
        expandAll registry children engine = (.ok alternatives, after) →
          ∀ streams ∈ alternatives, streams.length = 1) :
      Refactored registry engine (.block info children)
        (.block { info with kind := .sequence } children)
  | within {engine : Engine} {info : BlockInfo} {before after : List (Tree α)}
      {child other : Tree α}
      (there : ∀ alternatives reached,
        expandAll registry before engine = (.ok alternatives, reached) →
          Refactored registry reached child other) :
      Refactored registry engine (.block info (before ++ child :: after))
        (.block info (before ++ other :: after))

/-- What is not seen of a child is not seen of the block around it. -/
theorem Indistinct.within {info : BlockInfo} {before after : List (Tree α)} {child other : Tree α}
    (there : ∀ alternatives reached,
      expandAll registry before engine = (.ok alternatives, reached) →
        Indistinct registry reached child other) :
    Indistinct registry engine (.block info (before ++ child :: after))
      (.block info (before ++ other :: after)) := by
  have parted : ∀ alternatives reached,
      expandAll registry before engine = (.ok alternatives, reached) →
        AlikeFrom reached Eq (placeless (expandAll registry [child]))
          (placeless (expandAll registry [other])) := by
    intro alternatives reached expanded
    simp only [expandAll, pure_bind, Generation.placeless_bind, Generation.placeless_pure]
    refine AlikeFrom.bind (there alternatives reached expanded) ?_
    rintro streams _ rfl
    exact Computation.inStep_pure rfl
  cases composes : composition registry info.kind info.strategies with
  | error fault =>
      rw [Indistinct, expand, expand, Generation.placeless_locating,
        Generation.placeless_locating, composes]
      exact ⟨.error _, rfl⟩
  | ok compose =>
      refine block_indistinct rfl composes composes (expandAll_between parted) ?_
      rintro _ _ ⟨first, middle, _, last, rfl, rfl, rfl⟩
      rfl

theorem Refactored.indistinct (defaults : UsualDefaults registry) {tree other : Tree α}
    (refactored : Refactored registry engine tree other) :
    Indistinct registry engine tree other := by
  induction refactored with
  | dissolved plain idle => exact dissolved_indistinct defaults plain idle _ _ _
  | ordered free plain some_child one => exact ordered_indistinct defaults free plain some_child one
  | within _ there => exact Indistinct.within there

/-- **Neutral nesting means nothing.**  In whatever context it stands, a sequence without
strategies may be dissolved in a sequence or an atomic block, an iterate block in an iterate
block, a sequence or an atomic block, and an atomic block in an atomic block, and a free block
whose children have one stream each may be a sequence: expansion comes to the same streams, or to
the same fault, and leaves the random source in the same state. -/
theorem neutral_nesting (registry : Registry α) (defaults : UsualDefaults registry)
    {engine : Engine} {tree other : Tree α} (refactored : Refactored registry engine tree other) :
    produced registry tree engine = produced registry other engine :=
  (refactored.indistinct defaults).produced

/-- An iterate block that shuffles its streams: one inside it dissolves, and a free block in it
may be a sequence. -/
theorem neutral_nesting_shuffled :
    let shuffled : BlockInfo :=
      { id := BlockId.root, kind := .iterate, strategies := { rearranger := some "random" } }
    let pair (kind : BlockKind) : BlockInfo := { id := BlockId.root.child 1, kind }
    UsualDefaults (Strategy.builtins : Registry Nat) ∧
      produced Strategy.builtins
          (.block shuffled [.leaf 1, .block (pair .iterate) [.leaf 2, .leaf 3]])
          (Engine.ofSeed 7) =
        produced Strategy.builtins (.block shuffled [.leaf 1, .leaf 2, .leaf 3])
          (Engine.ofSeed 7) ∧
      produced Strategy.builtins
          (.block shuffled [.leaf 1, .block (pair .free) [.leaf 2, .leaf 3]])
          (Engine.ofSeed 7) =
        produced Strategy.builtins
          (.block shuffled [.leaf 1, .block (pair .sequence) [.leaf 2, .leaf 3]])
          (Engine.ofSeed 7) := by
  intro shuffled pair
  have iterated : Refactored Strategy.builtins (Engine.ofSeed 7)
      (.block shuffled ([.leaf 1] ++ .block (pair .iterate) [.leaf 2, .leaf 3] :: []))
      (.block shuffled ([.leaf 1] ++ ([.leaf 2, .leaf 3] ++ []))) :=
    .dissolved rfl rfl
  have ordered : Refactored Strategy.builtins (Engine.ofSeed 7)
      (.block shuffled ([.leaf 1] ++ .block (pair .free) [.leaf 2, .leaf 3] :: []))
      (.block shuffled ([.leaf 1] ++ .block (pair .sequence) [.leaf 2, .leaf 3] :: [])) := by
    refine .within (fun _ reached _ => .ordered rfl rfl (by simp) ?_)
    intro alternatives after expanded
    cases expanded
    decide
  exact ⟨builtins_usualDefaults,
    neutral_nesting Strategy.builtins builtins_usualDefaults iterated,
    neutral_nesting Strategy.builtins builtins_usualDefaults ordered⟩

end Expansion
end TestProgram
