/-
# TestProgram.Proofs.Atomicity -- what is atomic stays in one piece

Expanding a tree expands each of its nodes once: `reach` finds the engine from which the
node at a place is expanded on the way, and `streamsAt` the streams that it gives.  So in
one run an atomic block emits one list of emissions (`emittedAt`).

The invariant is `Piece`.  A unit is one call that stands in no atomic block, or all that
an outermost atomic block emits; the streams of a block that is not atomic are made of
units of its children, so `pieces` carries it from the children of a block to the block.
For this every emission has to tell which call it comes from, so it is a traced tree that
is expanded; composition does not look into what it composes, so the same happens to the
tree itself (`streamsAt_map`).  `atomic_blocks_stay_whole` puts both together, for the
streams of every node and for the sequences that are generated from a block.
-/
import TestProgram.Proofs.Blindness
import TestProgram.Proofs.Composition
import TestProgram.Proofs.Finalization
import TestProgram.Proofs.Places
import TestProgram.Session.Phases

namespace TestProgram.Expansion

set_option autoImplicit false

open Strategy

variable {α : Type} {registry : Registry α}

/-! ## Runs within a run -/

/-- The node at a place, and the engine that its expansion starts from when the whole tree
is expanded from an engine. -/
def reach (registry : Registry α) : Tree α → Engine → List Nat → Option (Tree α × Engine)
  | tree, engine, [] => some (tree, engine)
  | .leaf _, _, _ :: _ => none
  | .block info children, engine, number :: rest =>
      match composition registry info.kind info.strategies, children[number]?,
        expandAll registry (children.take number) engine with
      | .ok _, some child, (.ok _, start) => reach registry child start rest
      | _, _, _ => none

/-- The streams of the node at a place when the whole tree is expanded from an engine. -/
def streamsAt (registry : Registry α) (tree : Tree α) (engine : Engine) (place : List Nat) :
    Option (List (Stream α)) :=
  (reach registry tree engine place).bind
    (fun (node, start) => (expand registry node start).1.toOption)

theorem reach_append (registry : Registry α) (tree : Tree α) (engine : Engine)
    (outer inner : List Nat) :
    reach registry tree engine (outer ++ inner) =
      (reach registry tree engine outer).bind
        (fun (node, start) => reach registry node start inner) := by
  induction outer generalizing tree engine with
  | nil => rfl
  | cons number rest ih =>
      cases tree with
      | leaf call => rfl
      | block info children =>
          simp only [List.cons_append, reach]
          split
          · exact ih _ _
          · rfl

theorem reach_node? {tree node : Tree α} {engine start : Engine} {place : List Nat}
    (there : reach registry tree engine place = some (node, start)) :
    tree.node? place = some node := by
  induction place generalizing tree engine with
  | nil =>
      cases there
      rfl
  | cons number rest ih =>
      cases tree with
      | leaf call => cases there
      | block info children =>
          simp only [reach] at there
          split at there
          · rename_i found _
            rw [Tree.node?, found]
            exact ih there
          · cases there

theorem reach_child {tree child : Tree α} {info : BlockInfo} {children : List (Tree α)}
    {engine start further : Engine} {place : List Nat} {number : Nat} {compose : Composition α}
    {earlier : List (List (Stream α))}
    (here : reach registry tree engine place = some (.block info children, start))
    (composes : composition registry info.kind info.strategies = .ok compose)
    (found : children[number]? = some child)
    (before : expandAll registry (children.take number) start = (.ok earlier, further)) :
    reach registry tree engine (place ++ [number]) = some (child, further) := by
  rw [reach_append, here]
  simp only [Option.bind_some, reach, composes, found, before]

/-! ## Units of a run -/

/-- Whatever a tree is expanded into consists of its own calls. -/
theorem expand_calls (lawful : Lawful registry) (tree : Tree α) :
    ∀ {engine after : Engine} {streams : List (Stream α)},
      expand registry tree engine = (.ok streams, after) →
      ∀ stream ∈ streams, ∀ unit ∈ stream.units, ∀ emission ∈ unit, emission ∈ tree.calls := by
  induction tree using Tree.induction with
  | leaf call =>
      intro engine after streams expanded
      cases expanded
      simp [Stream.single, Tree.calls]
  | block info children ih =>
      intro engine after streams expanded stream member unit inside emission held
      obtain ⟨compose, finish, alternatives, middle, random, composes, finishes, further, rfl⟩ :=
        expand_block_ok expanded
      obtain ⟨made, composed, listed⟩ :=
        mem_finished lawful finishes _ random stream member unit inside
      obtain ⟨choices, given, choice, chosen, source, among, emitted⟩ :=
        composition_emissions lawful composes alternatives middle.random made composed unit listed
          emission held
      obtain ⟨number, child, _, start, stop, found, _, run⟩ := expandAll_mem further choices given
      rw [Tree.calls]
      exact Tree.mem_callsOf_of_mem (List.mem_of_getElem? found)
        (ih child (List.mem_of_getElem? found) run choice chosen source among emission emitted)

/-- An atomic block has one unit at most: all that it emits. -/
theorem atomic_unit (lawful : Lawful registry) {info : BlockInfo} {children : List (Tree α)}
    {engine after : Engine} {streams : List (Stream α)} (atomic : info.kind = .atomic)
    (expanded : expand registry (.block info children) engine = (.ok streams, after)) :
    ∀ stream ∈ streams, ∀ unit ∈ stream.units, unit = streams.flatMap Stream.emissions := by
  obtain ⟨compose, finish, alternatives, middle, random, composes, finishes, _, rfl⟩ :=
    expand_block_ok expanded
  rw [atomic] at composes
  cases composes
  change ∀ stream ∈ (finish [(Stream.concat alternatives.flatten).toAtomic] random).1,
    ∀ unit ∈ stream.units, unit =
      (finish [(Stream.concat alternatives.flatten).toAtomic] random).1.flatMap Stream.emissions
  generalize Stream.concat alternatives.flatten = whole
  have same := finishing_perm lawful finishes [whole.toAtomic] random
  generalize (finish [whole.toAtomic] random).1 = streams at same ⊢
  intro stream member unit inside
  have listed : unit ∈ streams.flatMap Stream.units :=
    List.mem_flatMap.mpr ⟨stream, member, inside⟩
  have from_whole : unit ∈ whole.toAtomic.units := by simpa using same.subset listed
  have alone : whole.toAtomic.units = [unit] := by
    have of_whole := eq_of_mem_toAtomic from_whole
    subst of_whole
    have filled := whole.toAtomic.filled _ from_whole
    simp [Stream.toAtomic, Stream.ofUnits, filled]
  have units : streams.flatMap Stream.units = [unit] := by
    rw [← List.perm_singleton]
    simpa [alone] using same
  calc unit = (streams.flatMap Stream.units).flatten := by simp [units]
    _ = streams.flatMap Stream.emissions := flatten_units streams

/-- All that was emitted at a place, in order. -/
def emittedAt (registry : Registry α) (tree : Tree α) (engine : Engine) (place : List Nat) :
    List α :=
  ((streamsAt registry tree engine place).getD []).flatMap Stream.emissions

section Pieces

variable (tree : Tree α) (own : List Nat → List (List Nat × α))

/-- What a unit of traced emissions can be: one call that stands in no atomic block, or the
whole of an outermost one. -/
inductive Piece : List (List Nat × α) → Prop
  | call (emission : List Nat × α) (outside : ¬ tree.Inside emission.1)
      (here : tree.node? emission.1 = some (.leaf emission.2)) : Piece [emission]
  | block (place : List Nat) (outermost : tree.Outermost place)
      (within : ∀ emission ∈ own place, place <+: emission.1 ∧
        tree.node? emission.1 = some (.leaf emission.2)) : Piece (own place)

end Pieces

theorem pieces {registry : Registry (List Nat × α)} (lawful : Lawful registry) (root : Tree α)
    (start : Engine) (tree : Tree α) :
    ∀ {place : List Nat} {engine after : Engine} {streams : List (Stream (List Nat × α))},
      root.node? place = some tree → ¬ root.Inside place →
      reach registry root.traced start place = some (tree.tracedFrom place, engine) →
      expand registry (tree.tracedFrom place) engine = (.ok streams, after) →
      ∀ stream ∈ streams, ∀ unit ∈ stream.units,
        Piece root (emittedAt registry root.traced start) unit := by
  induction tree using Tree.induction with
  | leaf call =>
      intro place engine after streams here outside reached expanded stream member unit inside
      cases expanded
      rw [List.mem_singleton] at member
      subst member
      rw [Stream.single, List.mem_singleton] at inside
      subst inside
      exact .call (place, call) outside here
  | block info children ih =>
      intro place engine after streams here outside reached expanded stream member unit inside
      by_cases atomic : info.kind = .atomic
      · -- the block stands in no other atomic one, so it is an outermost one itself
        have outermost := Tree.outermost_of_not_inside ⟨info, children, here, atomic⟩ outside
        have whole : unit = emittedAt registry root.traced start place := by
          rw [emittedAt, streamsAt, reached]
          simp only [Option.bind_some, expanded]
          exact atomic_unit lawful atomic expanded stream member unit inside
        have emitted := expand_calls lawful _ expanded stream member unit inside
        rw [whole] at emitted ⊢
        refine .block place outermost (fun emission listed => ?_)
        obtain ⟨rest, path, leaf⟩ := Tree.mem_calls_tracedFrom _ (emitted emission listed)
        refine ⟨⟨rest, path.symm⟩, ?_⟩
        rw [path, Tree.node?_append, here]
        exact leaf
      · have divisible : ¬ root.AtomicAt place := by
          rintro ⟨other, others, there, kind⟩
          rw [here] at there
          cases there
          exact atomic kind
        obtain ⟨compose, finish, alternatives, middle, random, composes, finishes, further, rfl⟩ :=
          expand_block_ok expanded
        obtain ⟨made, composed, listed⟩ :=
          mem_finished lawful finishes _ random stream member unit inside
        obtain ⟨choices, given, choice, chosen, among⟩ :=
          composition_units lawful atomic composes alternatives middle.random made composed unit
            listed
        obtain ⟨number, child, earlier, begun, stop, found, before, run⟩ :=
          expandAll_mem further choices given
        have traced_child := reach_child reached composes found before
        rw [Tree.getElem?_tracedAll, Nat.zero_add, Option.map_eq_some_iff] at found
        obtain ⟨untraced, listed, rfl⟩ := found
        exact ih untraced (List.mem_of_getElem? listed) (Tree.node?_child here listed)
          (Tree.not_inside_child divisible outside number) traced_child run choice chosen unit among

/-! ## Traces of a run -/

/-- The blocks of a tree find the strategies of a new session under the names they use. -/
def UsesBuiltins (registry : Registry α) (tree : Tree α) : Prop :=
  ∀ place info children, tree.node? place = some (.block info children) →
    composition registry info.kind info.strategies =
      composition builtins info.kind info.strategies ∧
    finishing registry info.strategies = finishing builtins info.strategies

theorem uses_builtins (tree : Tree α) : UsesBuiltins builtins tree :=
  fun _ _ _ _ => ⟨rfl, rfl⟩

theorem UsesBuiltins.blindOn {tree : Tree α} (uses : UsesBuiltins registry tree) :
    BlindOn Prod.snd builtins registry tree.traced := by
  intro place info children there
  obtain ⟨composes, finishes⟩ :=
    blind_on (builtins_blind Prod.snd) tree.traced place info children there
  rw [Tree.traced, Tree.node?_tracedFrom, Option.map_eq_some_iff] at there
  obtain ⟨node, here, traced⟩ := there
  cases node with
  | leaf call => cases traced
  | block info children =>
      cases traced
      obtain ⟨composition_is, finishing_is⟩ := uses place info children here
      rw [composition_is, finishing_is]
      exact ⟨composes, finishes⟩

theorem reach_map {β : Type} {f : α → β} {there : Registry β} (place : List Nat) :
    ∀ (tree : Tree α) (engine : Engine), BlindOn f registry there tree →
      reach there (tree.map f) engine place =
        (reach registry tree engine place).map (fun (node, start) => (node.map f, start)) := by
  induction place with
  | nil => intro tree engine _; rfl
  | cons number rest ih =>
      intro tree engine blind
      cases tree with
      | leaf call => rfl
      | block info children =>
          have earlier := congrFun (expandAll_map (children.take number) (fun child member =>
            expand_map child (blind.child child (List.mem_of_mem_take member)))) engine
          simp only [Tree.map, reach, Tree.getElem?_mapAll, Tree.take_mapAll, earlier]
          have composes := (blind [] info children rfl).1
          generalize composition registry info.kind info.strategies = here at composes
          generalize composition there info.kind info.strategies = other at composes
          cases composes with
          | error fault => rfl
          | ok related =>
              cases found : children[number]? with
              | none => rfl
              | some child =>
                  rw [map_run]
                  rcases expandAll registry (children.take number) engine with ⟨_ | _, start⟩
                  · rfl
                  · exact ih child start (blind.child child (List.mem_of_getElem? found))

theorem streamsAt_map {β : Type} {f : α → β} {there : Registry β} {tree : Tree α}
    (blind : BlindOn f registry there tree) (engine : Engine) (place : List Nat) :
    streamsAt there (tree.map f) engine place =
      (streamsAt registry tree engine place).map (List.map (Stream.map f)) := by
  rw [streamsAt, streamsAt, reach_map place tree engine blind]
  cases reached : reach registry tree engine place with
  | none => rfl
  | some pair =>
      obtain ⟨node, start⟩ := pair
      simp only [Option.map_some, Option.bind_some]
      rw [expand_map node (blind.below (reach_node? reached)), map_run]
      rcases expand registry node start with ⟨_ | _, _⟩ <;> rfl

/-! ## Finalized sequences -/

/-- Sequences are generated by expanding the whole tree and finalizing its streams, one after
another. -/
theorem generateSequences_run {block : Block Call} {session after : Session}
    {sequences : List Sequence}
    (run : Session.generateSequences block session = (.ok sequences, after)) :
    ∃ streams middle, expand session.registry block.toTree session.engine = (.ok streams, middle) ∧
      streams.mapM finalize middle = (.ok sequences, after.engine) := by
  rw [Session.generateSequences] at run
  obtain ⟨_, _, here, run⟩ := Computation.bind_ok_iff.mp run
  cases here
  rcases body : (do
      let streams ← expand session.registry block.toTree
      streams.mapM finalize) session.engine with ⟨outcome, engine⟩
  simp only [Action.generation, body] at run
  cases run
  exact Computation.bind_ok_iff.mp body

/-- Generated sequences are the finalized streams of the whole tree. -/
theorem generateSequences_ok {block : Block Call} {session after : Session}
    {sequences : List Sequence}
    (run : Session.generateSequences block session = (.ok sequences, after)) :
    ∃ streams, streamsAt session.registry block.toTree session.engine [] = some streams ∧
      List.Forall₂ (fun stream sequence => ∃ before after,
        finalize stream before = (.ok sequence, after)) streams sequences := by
  obtain ⟨streams, middle, expanded, finalized⟩ := generateSequences_run run
  refine ⟨streams, ?_, Computation.mapM_ok finalized⟩
  rw [streamsAt, reach]
  simp [expanded, Except.toOption]

/-! ## Atomic blocks in streams and sequences -/

/-- What a unit of traced emissions says of the outermost atomic blocks of a tree, when `own`
gives the emissions of each of them. -/
structure Whole (tree : Tree α) (own : List Nat → List (List Nat × α))
    (unit : List (List Nat × α)) : Prop where
  real : ∀ emission ∈ unit, tree.node? emission.1 = some (.leaf emission.2)
  atomic : ∀ place, tree.Outermost place → (∃ emission ∈ unit, place <+: emission.1) →
    unit = own place
  single : (∀ place, tree.Outermost place → ∀ emission ∈ unit, ¬ place <+: emission.1) →
    ∃ emission, unit = [emission]

theorem Piece.whole {tree : Tree α} {own : List Nat → List (List Nat × α)}
    {unit : List (List Nat × α)} (piece : Piece tree own unit) (filled : unit ≠ []) :
    Whole tree own unit := by
  cases piece with
  | call emission outside here =>
      refine ⟨by simpa using here, ?_, fun _ => ⟨emission, rfl⟩⟩
      rintro place outermost ⟨held, listed, encloses⟩
      rw [List.mem_singleton.mp listed] at encloses
      -- an atomic block cannot be the call itself, so the call would stand inside it
      have same : place = emission.1 := by
        by_contra ne
        exact outside ⟨place, outermost.1, encloses, ne⟩
      obtain ⟨info, children, there, _⟩ := outermost.1
      rw [same, here] at there
      cases there
  | block place outermost within =>
      refine ⟨fun emission listed => (within emission listed).2, ?_, fun none => ?_⟩
      · rintro other also_outermost ⟨emission, listed, encloses⟩
        rw [outermost.unique also_outermost (within emission listed).1 encloses]
      · obtain ⟨emission, listed⟩ := List.exists_mem_of_ne_nil _ filled
        exact absurd (within emission listed).1 (none place outermost emission listed)

/-- The streams of every node that stands in no atomic block consist of whole units. -/
theorem whole_units {registry : Registry (List Nat × α)} (lawful : Lawful registry)
    {tree : Tree α} {engine : Engine} {place : List Nat} {traces : List (Stream (List Nat × α))}
    (outside : ¬ tree.Inside place)
    (expanded : streamsAt registry tree.traced engine place = some traces) :
    ∀ trace ∈ traces, ∀ unit ∈ trace.units,
      Whole tree (emittedAt registry tree.traced engine) unit := by
  intro trace member unit inside
  obtain ⟨⟨node, start⟩, reached, run⟩ := Option.bind_eq_some_iff.mp expanded
  have there := reach_node? reached
  rw [Tree.traced, Tree.node?_tracedFrom, Option.map_eq_some_iff] at there
  obtain ⟨untraced, here, rfl⟩ := there
  rcases outcome : expand registry (untraced.tracedFrom place) start with ⟨_ | streams, after⟩
  · simp [outcome, Except.toOption] at run
  · simp only [List.nil_append, outcome, Except.toOption, Option.some.injEq] at run
    subst run
    exact (pieces lawful tree engine untraced here outside reached outcome trace member unit
      inside).whole (trace.filled unit inside)

theorem emittedAt_within {registry : Registry (List Nat × α)} (lawful : Lawful registry)
    (tree : Tree α) (engine : Engine) (place : List Nat) :
    ∀ emission ∈ emittedAt registry tree.traced engine place, place <+: emission.1 := by
  intro emission listed
  rw [emittedAt, streamsAt] at listed
  cases reached : reach registry tree.traced engine place with
  | none => simp [reached] at listed
  | some pair =>
      obtain ⟨node, start⟩ := pair
      have there := reach_node? reached
      rw [Tree.traced, Tree.node?_tracedFrom, Option.map_eq_some_iff] at there
      obtain ⟨untraced, _, rfl⟩ := there
      rcases outcome : expand registry (untraced.tracedFrom place) start with ⟨_ | streams, after⟩
      · simp [reached, outcome, Except.toOption] at listed
      · simp only [List.nil_append, reached, outcome, Except.toOption, Option.bind_some,
          Option.getD_some] at listed
        obtain ⟨stream, member, emitted⟩ := List.mem_flatMap.mp listed
        obtain ⟨unit, inside, held⟩ := List.mem_flatten.mp emitted
        have called := expand_calls lawful _ outcome stream member unit inside emission held
        obtain ⟨rest, path, _⟩ := Tree.mem_calls_tracedFrom _ called
        exact ⟨rest, path.symm⟩

/-- A sequence that prints a traced stream: cut up at the bounds of the units, it has the
lines of each unit together and in order. -/
def Prints (trace : Stream (List Nat × Call)) (sequence : Sequence) : Prop :=
  ∃ groups : List Sequence, sequence = groups.flatten ∧
    List.Forall₂ (List.Forall₂ (fun emission instruction => emission.2.StandsAs instruction))
      trace.units groups

theorem streamsAt_untraced {registry : Registry α} {tree : Tree α}
    (uses : UsesBuiltins registry tree) (engine : Engine) (place : List Nat) :
    streamsAt registry tree engine place =
      (streamsAt builtins tree.traced engine place).map (List.map (Stream.map Prod.snd)) := by
  have mapped := streamsAt_map uses.blindOn engine place
  rwa [Tree.map_traced] at mapped

theorem emissions_map {β : Type} (f : α → β) (stream : Stream α) :
    (stream.map f).emissions = stream.emissions.map f := by
  simp [Stream.map, Stream.emissions, List.map_flatten]

/-- What finalizing makes of the streams of a traced tree prints them. -/
theorem prints_finalized {traces : List (Stream (List Nat × Call))} {sequences : List Sequence}
    (finalized : List.Forall₂ (fun stream sequence => ∃ before after,
      finalize stream before = (.ok sequence, after)) (traces.map (Stream.map Prod.snd))
      sequences) :
    List.Forall₂ Prints traces sequences := by
  rw [List.forall₂_map_left_iff] at finalized
  refine finalized.imp ?_
  rintro trace sequence ⟨before, stop, run⟩
  have stands := finalize_stands run
  rw [emissions_map, List.forall₂_map_left_iff] at stands
  exact Paired.exists_groups stands

/-- The sequences of a sealed block print the streams of its traced tree. -/
theorem generateSequences_prints {session after : Session} {block : Block Call}
    (builtin : UsesBuiltins session.registry block.toTree) {sequences : List Sequence}
    (run : Session.generateSequences block session = (.ok sequences, after)) :
    ∃ traces, streamsAt builtins block.toTree.traced session.engine [] = some traces ∧
      List.Forall₂ Prints traces sequences := by
  obtain ⟨streams, expanded, finalized⟩ := generateSequences_ok run
  rw [streamsAt_untraced builtin, Option.map_eq_some_iff] at expanded
  obtain ⟨traces, expanded, rfl⟩ := expanded
  exact ⟨traces, expanded, prints_finalized finalized⟩

/-- The outermost atomic blocks of a tree stay whole in a run: `own` gives the emissions of
each of them, once and for all. -/
structure StaysWhole (session : Session) (block : Block Call)
    (own : List Nat → List (List Nat × Call)) : Prop where
  within : ∀ place, ∀ emission ∈ own place, place <+: emission.1
  streams : ∀ place streams,
    streamsAt session.registry block.toTree session.engine place = some streams →
    ∃ traces, streamsAt builtins block.toTree.traced session.engine place = some traces ∧
      streams = traces.map (Stream.map Prod.snd) ∧
      (∀ trace ∈ traces, ∀ unit ∈ trace.units, unit ≠ []) ∧
      (¬ block.toTree.Inside place →
        ∀ trace ∈ traces, ∀ unit ∈ trace.units, Whole block.toTree own unit)
  sequences : ∀ sequences after,
    Session.generateSequences block session = (.ok sequences, after) →
    ∃ traces, streamsAt builtins block.toTree.traced session.engine [] = some traces ∧
      (∀ trace ∈ traces, ∀ unit ∈ trace.units, unit ≠ [] ∧ Whole block.toTree own unit) ∧
      List.Forall₂ Prints traces sequences

/-- **Atomic blocks are never split or reordered.**  With built-in strategies, for any tree and
any random source, each outermost atomic block has one list of emissions such that in every
stream of a node that stands in no atomic block, what comes from that block is a unit with the
whole of this list, and every other unit is one emission from outside all atomic blocks.  The
lines of each unit stand together and in order in the finalized sequences of a phase, and no
unit of any stream is empty. -/
theorem atomic_blocks_stay_whole (session : Session) (block : Block Call)
    (builtin : UsesBuiltins session.registry block.toTree) :
    ∃ own, StaysWhole session block own := by
  have lawful : Lawful (builtins : Registry (List Nat × Call)) := builtins_lawful
  refine ⟨emittedAt builtins block.toTree.traced session.engine,
    emittedAt_within lawful _ _, ?_, ?_⟩
  · intro place streams expanded
    rw [streamsAt_untraced builtin, Option.map_eq_some_iff] at expanded
    obtain ⟨traces, expanded, rfl⟩ := expanded
    exact ⟨traces, expanded, rfl, fun trace _ => trace.filled,
      fun outside => whole_units lawful outside expanded⟩
  · intro sequences after run
    obtain ⟨traces, expanded, printed⟩ := generateSequences_prints builtin run
    have outside : ¬ block.toTree.Inside [] := by
      rintro ⟨outer, _, encloses, ne⟩
      exact ne (List.prefix_nil.mp encloses)
    exact ⟨traces, expanded, fun trace member unit inside =>
      ⟨trace.filled unit inside, whole_units lawful outside expanded trace member unit inside⟩,
      printed⟩

/-- An atomic block of two calls and a third call, merged by turns. -/
def pairBeside : Block Call where
  info := { id := BlockId.root, kind := .free, strategies := { compositor := some "rotation" } }
  children :=
    [.block { id := BlockId.root.child 0, kind := .atomic }
      [.leaf { name := "a" }, .leaf { name := "b" }],
     .leaf { name := "c" }]

theorem atomic_blocks_stay_whole_by_turns :
    ∃ own, StaysWhole (Session.new {}) pairBeside own ∧
      own [0] = [([0, 0], { name := "a" }), ([0, 1], { name := "b" })] := by
  obtain ⟨own, whole⟩ :=
    atomic_blocks_stay_whole (Session.new {}) pairBeside (uses_builtins pairBeside.toTree)
  have outside : ¬ pairBeside.toTree.Inside [] := by
    rintro ⟨outer, _, encloses, ne⟩
    exact ne (List.prefix_nil.mp encloses)
  have outermost : pairBeside.toTree.Outermost [0] := by
    refine ⟨⟨_, _, rfl, rfl⟩, fun outer encloses atomic => ?_⟩
    rcases List.prefix_concat_iff.mp (show outer <+: [] ++ [0] from encloses) with same | shorter
    · exact same
    · obtain rfl := List.prefix_nil.mp shorter
      obtain ⟨info, children, here, atomic⟩ := atomic
      cases here
      cases atomic
  obtain ⟨traces, expanded, _, _, units⟩ := whole.streams [] _ rfl
  cases expanded
  have first := units outside _ (List.mem_singleton.mpr rfl) _ List.mem_cons_self
  exact ⟨own, whole, (first.atomic [0] outermost ⟨_, List.mem_cons_self, [0], rfl⟩).symm⟩

end TestProgram.Expansion
