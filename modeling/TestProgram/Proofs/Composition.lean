/-
# TestProgram.Proofs.Composition -- what a block makes of the streams of its children

A free block takes one alternative of every child and interleaves the chosen streams,
whatever combinator, permutator and compositor it uses and whatever they draw
(`freely_interleaves`); `free_block_interleaves` says so of the run of `expand` itself,
with the number of the alternative that was chosen of each child.

For a block of any kind there are three facts to go on with.  Its emissions are those of its
children (`composition_emissions`), if it is not atomic so are its units (`composition_units`),
and what happens to composed streams afterwards leaves their units as they are
(`finishing_perm`).  A run that succeeds is taken apart by `expand_block_ok` for the block and
by `expandAll_mem` for each of its children.
-/
import TestProgram.Expansion
import TestProgram.Proofs.Computation
import TestProgram.Proofs.Strategies

namespace TestProgram.Expansion

set_option autoImplicit false

open Strategy

variable {α : Type} {registry : Registry α}

/-! ## Looking strategies up -/

theorem mem_of_lookup {β : Type} {table : KeyMap β} {option : StrategyOption}
    {name : Option String} {strategy : β}
    (found : Registry.lookup table option name = .ok strategy) :
    (name.getD option.default, strategy) ∈ table := by
  simp only [Registry.lookup] at found
  split at found
  · rename_i held there
    cases found
    exact KeyMap.mem_of_find? there
  · cases found

/-- The composition of a free block is that of the three strategies it names. -/
theorem composition_free {strategies : StrategySet} {combine : Combinator α}
    {permute : Permutator α} {compose : Compositor α}
    (combines : registry.combinator strategies.combinator = .ok combine)
    (permutes : registry.permutator strategies.permutator = .ok permute)
    (composes : registry.compositor strategies.compositor = .ok compose) :
    composition registry .free strategies = .ok (freely combine permute compose) := by
  simp only [composition, combines, permutes, composes]
  rfl

theorem composition_free_ok {strategies : StrategySet} {composed : Composition α}
    (found : composition registry .free strategies = .ok composed) :
    ∃ combine permute compose,
      registry.combinator strategies.combinator = .ok combine ∧
      registry.permutator strategies.permutator = .ok permute ∧
      registry.compositor strategies.compositor = .ok compose ∧
      composed = freely combine permute compose := by
  simp only [composition] at found
  obtain ⟨combine, combines, found⟩ := Except.bind_ok_iff.mp found
  obtain ⟨permute, permutes, found⟩ := Except.bind_ok_iff.mp found
  obtain ⟨compose, composes, found⟩ := Except.bind_ok_iff.mp found
  cases found
  exact ⟨combine, permute, compose, combines, permutes, composes, rfl⟩

/-! ## Free composition -/

/-- One alternative of every child, and the chosen streams interleaved. -/
theorem freely_interleaves {combine : Combinator α} {permute : Permutator α}
    {compose : Compositor α} (chooses : Chooses combine) (permutes : Permutes permute)
    (interleaves : Interleaves compose) (alternatives : List (List (Stream α))) :
    Draw.Always (freely combine permute compose alternatives) (fun streams =>
      ∀ stream ∈ streams, ∃ chosen, List.Forall₂ (· ∈ ·) chosen alternatives ∧
        Interleaving (chosen.map Stream.units) stream.units) := by
  refine Draw.always_bind (chooses alternatives) (fun combinations chosen => ?_)
  refine (Draw.always_mapM_mem (R := fun combination stream =>
    Interleaving (combination.map Stream.units) stream.units) ?_).mono ?_
  · intro combination _
    refine Draw.always_bind (permutes combination) (fun ordered same => ?_)
    exact (interleaves ordered).mono (fun stream made => made.perm (same.map Stream.units))
  · intro streams each stream member
    obtain ⟨combination, source, made⟩ := each stream member
    exact ⟨combination, chosen combination source, made⟩

/-- Chosen streams have numbers among the alternatives they were chosen from. -/
theorem exists_numbers {chosen : List (Stream α)} {alternatives : List (List (Stream α))}
    (each : List.Forall₂ (· ∈ ·) chosen alternatives) :
    ∃ picks : List (Nat × Stream α), picks.map Prod.snd = chosen ∧
      List.Forall₂ (fun pick streams => streams[pick.1]? = some pick.2) picks alternatives := by
  induction each with
  | nil => exact ⟨[], rfl, .nil⟩
  | @cons stream streams _ _ member _ ih =>
      obtain ⟨picks, rfl, numbered⟩ := ih
      obtain ⟨number, found⟩ := List.mem_iff_getElem?.mp member
      exact ⟨(number, stream) :: picks, rfl, .cons found numbered⟩

theorem expandAll_length {children : List (Tree α)} {engine after : Engine}
    {alternatives : List (List (Stream α))}
    (expanded : expandAll registry children engine = (.ok alternatives, after)) :
    alternatives.length = children.length := by
  induction children generalizing engine alternatives with
  | nil =>
      cases expanded
      rfl
  | cons child rest ih =>
      obtain ⟨streams, middle, _, expanded⟩ := Computation.bind_ok_iff.mp expanded
      obtain ⟨others, last, there, expanded⟩ := Computation.bind_ok_iff.mp expanded
      cases expanded
      simp [ih there]

/-- The run of a block once its children are expanded: the composed streams go on to be
rearranged and perturbed. -/
theorem expand_block_run {info : BlockInfo} {children : List (Tree α)} {engine after : Engine}
    {compose : Composition α} {alternatives : List (List (Stream α))}
    (composed : composition registry info.kind info.strategies = .ok compose)
    (expanded : expandAll registry children engine = (.ok alternatives, after)) :
    expand registry (.block info children) engine =
      Generation.locating info.location
        (finished registry info (compose alternatives after.random).1)
        { after with random := (compose alternatives after.random).2 } := by
  rw [expand]
  unfold Generation.locating
  rw [Computation.bind_run, composed]
  simp only [Generation.ofExcept]
  rw [Computation.bind_run, expanded]
  simp only
  rw [Computation.bind_run]
  rfl

/-- **A free block composes exact interleavings.**  With built-in strategies, whatever its
children are and whatever is drawn, every stream that is composed before the block's
rearranger comes from one alternative of each child, and its units are those of the
chosen alternatives merged: each of them once, whole, and in the order it had. -/
theorem free_block_interleaves (registry : Registry α) (info : BlockInfo)
    (children : List (Tree α)) (engine after : Engine) (alternatives : List (List (Stream α)))
    {combine : Combinator α} {permute : Permutator α} {compose : Compositor α}
    (free : info.kind = .free)
    (combines : registry.combinator info.strategies.combinator = .ok combine)
    (permutes : registry.permutator info.strategies.permutator = .ok permute)
    (composes : registry.compositor info.strategies.compositor = .ok compose)
    (combine_builtin : combine ∈ [diagonal, product, randomCombinator])
    (permute_builtin : permute ∈ [identity, Draw.shuffle])
    (compose_builtin : compose ∈ [catenation, rotation, nesting, randomCompositor])
    (expanded : expandAll registry children engine = (.ok alternatives, after)) :
    ∃ (composed : List (Stream α)) (random : Random),
      freely combine permute compose alternatives after.random = (composed, random) ∧
      expand registry (.block info children) engine =
        Generation.locating info.location (finished registry info composed)
          { after with random } ∧
      ∀ stream ∈ composed, ∃ picks : List (Nat × Stream α),
        picks.length = children.length ∧
        List.Forall₂ (fun pick streams => streams[pick.1]? = some pick.2) picks alternatives ∧
        Interleaving (picks.map (fun pick => pick.2.units)) stream.units := by
  have chooses : Chooses combine := by
    simp only [List.mem_cons, List.not_mem_nil, or_false] at combine_builtin
    rcases combine_builtin with rfl | rfl | rfl
    · exact diagonal_chooses
    · exact product_chooses
    · exact randomCombinator_chooses
  have orders : Permutes permute := by
    simp only [List.mem_cons, List.not_mem_nil, or_false] at permute_builtin
    rcases permute_builtin with rfl | rfl
    · exact identity_permutes
    · exact shuffle_permutes
  have interleaves : Interleaves compose := by
    simp only [List.mem_cons, List.not_mem_nil, or_false] at compose_builtin
    rcases compose_builtin with rfl | rfl | rfl | rfl
    · exact catenation_interleaves
    · exact rotation_interleaves
    · exact nesting_interleaves
    · exact randomCompositor_interleaves
  have composition_is := composition_free combines permutes composes
  rw [← free] at composition_is
  have block := expand_block_run composition_is expanded
  have streams := freely_interleaves chooses orders interleaves alternatives after.random
  rcases run : freely combine permute compose alternatives after.random with ⟨composed, random⟩
  rw [run] at block streams
  refine ⟨composed, random, rfl, block, fun stream member => ?_⟩
  obtain ⟨chosen, each, made⟩ := streams stream member
  obtain ⟨picks, rfl, numbered⟩ := exists_numbers each
  refine ⟨picks, ?_, numbered, ?_⟩
  · rw [numbered.length_eq, expandAll_length expanded]
  · simpa [Function.comp_def] using made

/-- Two children, one of them an iteration, with all three strategies drawing. -/
theorem free_block_interleaves_drawn :
    ∃ (composed : List (Stream Nat)) (random : Random),
      freely randomCombinator Draw.shuffle randomCompositor
        [[Stream.single 1, Stream.single 2], [Stream.single 3]] (Random.ofSeed 7) =
          (composed, random) ∧
      ∀ stream ∈ composed, ∃ picks : List (Nat × Stream Nat),
        picks.length = 2 ∧
        List.Forall₂ (fun pick streams => streams[pick.1]? = some pick.2) picks
          [[Stream.single 1, Stream.single 2], [Stream.single 3]] ∧
        Interleaving (picks.map (fun pick => pick.2.units)) stream.units := by
  have block := free_block_interleaves (Strategy.builtins : Registry Nat)
    { id := BlockId.root, kind := .free,
      strategies := { combinator := some "random", permutator := some "random",
                      compositor := some "random" } }
    [.block { id := BlockId.root.child 0, kind := .iterate } [.leaf 1, .leaf 2], .leaf 3]
    (Engine.ofSeed 7) _ _ rfl rfl rfl rfl (by simp) (by simp) (by simp) rfl
  obtain ⟨composed, random, run, _, each⟩ := block
  exact ⟨composed, random, run, each⟩

/-! ## Units -/

theorem concat_units (streams : List (Stream α)) :
    (Stream.concat streams).units = streams.flatMap Stream.units := by
  simp [Stream.concat, List.flatMap]

theorem flatten_units (streams : List (Stream α)) :
    (streams.flatMap Stream.units).flatten = streams.flatMap Stream.emissions := by
  induction streams with
  | nil => rfl
  | cons stream rest ih =>
      rw [List.flatMap_cons, List.flatten_append, ih, List.flatMap_cons]
      rfl

/-- The streams of a block that is not atomic are made of units of its children. -/
theorem composition_units (lawful : Lawful registry) {kind : BlockKind}
    {strategies : StrategySet} {compose : Composition α} (divisible : kind ≠ .atomic)
    (composed : composition registry kind strategies = .ok compose)
    (alternatives : List (List (Stream α))) :
    Draw.Always (compose alternatives) (fun streams =>
      ∀ stream ∈ streams, ∀ unit ∈ stream.units,
        ∃ choices ∈ alternatives, ∃ choice ∈ choices, unit ∈ choice.units) := by
  cases kind with
  | atomic => exact absurd rfl divisible
  | sequence =>
      cases composed
      refine Draw.always_pure (fun stream member unit inside => ?_)
      rw [List.mem_singleton] at member
      subst member
      rw [concat_units] at inside
      obtain ⟨choice, source, held⟩ := List.mem_flatMap.mp inside
      obtain ⟨choices, listed, chosen⟩ := List.mem_flatten.mp source
      exact ⟨choices, listed, choice, chosen, held⟩
  | iterate =>
      cases composed
      refine Draw.always_pure (fun stream member unit inside => ?_)
      obtain ⟨choices, listed, chosen⟩ := List.mem_flatten.mp member
      exact ⟨choices, listed, stream, chosen, inside⟩
  | free =>
      obtain ⟨combine, permute, compose, combines, permutes, composes, rfl⟩ :=
        composition_free_ok composed
      have chooses := lawful.combinators _ (mem_of_lookup combines)
      have orders := lawful.permutators _ (mem_of_lookup permutes)
      have interleaves := lawful.compositors _ (mem_of_lookup composes)
      refine (freely_interleaves chooses orders interleaves alternatives).mono ?_
      intro streams each stream member unit inside
      obtain ⟨chosen, from_each, made⟩ := each stream member
      obtain ⟨units, listed, held⟩ := made.mem inside
      obtain ⟨choice, picked, rfl⟩ := List.mem_map.mp listed
      obtain ⟨choices, source, one⟩ := Paired.exists_partner from_each.flip choice picked
      exact ⟨choices, source, choice, one, held⟩

theorem eq_of_mem_toAtomic {stream : Stream α} {unit : List α}
    (member : unit ∈ stream.toAtomic.units) : unit = stream.emissions :=
  List.mem_singleton.mp (List.mem_filter.mp member).1

/-- The emissions of a block of any kind are those of its children. -/
theorem composition_emissions (lawful : Lawful registry) {kind : BlockKind}
    {strategies : StrategySet} {compose : Composition α}
    (composed : composition registry kind strategies = .ok compose)
    (alternatives : List (List (Stream α))) :
    Draw.Always (compose alternatives) (fun streams => ∀ stream ∈ streams,
      ∀ unit ∈ stream.units, ∀ emission ∈ unit, ∃ choices ∈ alternatives, ∃ choice ∈ choices,
        ∃ source ∈ choice.units, emission ∈ source) := by
  by_cases atomic : kind = .atomic
  · subst atomic
    cases composed
    refine Draw.always_pure (fun stream member unit inside emission held => ?_)
    rw [List.mem_singleton] at member
    subst member
    rw [eq_of_mem_toAtomic inside, Stream.emissions, concat_units] at held
    obtain ⟨source, listed, held⟩ := List.mem_flatten.mp held
    obtain ⟨choice, among, listed⟩ := List.mem_flatMap.mp listed
    obtain ⟨choices, given, chosen⟩ := List.mem_flatten.mp among
    exact ⟨choices, given, choice, chosen, source, listed, held⟩
  · refine (composition_units lawful atomic composed alternatives).mono ?_
    intro streams each stream member unit inside emission held
    obtain ⟨choices, given, choice, chosen, listed⟩ := each stream member unit inside
    exact ⟨choices, given, choice, chosen, unit, listed, held⟩

/-- What happens to composed streams neither loses, doubles nor splits a unit. -/
theorem finishing_perm (lawful : Lawful registry) {strategies : StrategySet}
    {finish : List (Stream α) → Draw (List (Stream α))}
    (found : finishing registry strategies = .ok finish) (streams : List (Stream α)) :
    Draw.Always (finish streams) (fun made =>
      (made.flatMap Stream.units).Perm (streams.flatMap Stream.units)) := by
  obtain ⟨rearrange, rearranges, found⟩ := Except.bind_ok_iff.mp found
  obtain ⟨obfuscate, obfuscates, found⟩ := Except.bind_ok_iff.mp found
  cases found
  have regroups := lawful.rearrangers _ (mem_of_lookup rearranges)
  have leaves := lawful.obfuscators _ (mem_of_lookup obfuscates)
  refine Draw.always_bind (regroups streams) (fun rearranged same => ?_)
  refine (Draw.always_mapM (fun stream _ => leaves stream)).mono (fun made each => ?_)
  have unchanged : made = rearranged := by
    rw [← List.forall₂_eq_eq_eq]
    exact each.flip
  rw [unchanged]
  exact same

theorem mem_finished (lawful : Lawful registry) {strategies : StrategySet}
    {finish : List (Stream α) → Draw (List (Stream α))}
    (found : finishing registry strategies = .ok finish) (streams : List (Stream α))
    (random : Random) :
    ∀ stream ∈ (finish streams random).1, ∀ unit ∈ stream.units,
      ∃ source ∈ streams, unit ∈ source.units := by
  intro stream member unit inside
  have same := finishing_perm lawful found streams random
  exact List.mem_flatMap.mp (same.subset (List.mem_flatMap.mpr ⟨stream, member, inside⟩))

/-! ## Runs that succeed -/

theorem locating_ok_iff {β : Type} {location : Option Location} {body : Generation β}
    {engine after : Engine} {value : β} :
    Generation.locating location body engine = (.ok value, after) ↔
      body engine = (.ok value, after) := by
  unfold Generation.locating
  rcases body engine with ⟨_ | _, _⟩
  · constructor <;> intro failed <;> cases failed
  · exact Iff.rfl

theorem ofExcept_ok_iff {β : Type} {outcome : Except Fault β} {engine after : Engine} {value : β} :
    Generation.ofExcept outcome engine = (.ok value, after) ↔
      outcome = .ok value ∧ engine = after := by
  cases outcome with
  | error fault =>
      constructor
      · intro failed
        cases failed
      · rintro ⟨failed, _⟩
        cases failed
  | ok found =>
      constructor
      · intro run
        cases run
        exact ⟨rfl, rfl⟩
      · rintro ⟨same, rfl⟩
        cases same
        rfl

/-- What a block that was expanded went through: its children were expanded, their streams
composed, and the composed streams finished. -/
theorem expand_block_ok_iff {info : BlockInfo} {children : List (Tree α)} {engine after : Engine}
    {streams : List (Stream α)} :
    expand registry (.block info children) engine = (.ok streams, after) ↔
      ∃ compose finish alternatives middle,
        composition registry info.kind info.strategies = .ok compose ∧
        finishing registry info.strategies = .ok finish ∧
        expandAll registry children engine = (.ok alternatives, middle) ∧
        streams = (finish (compose alternatives middle.random).1
          (compose alternatives middle.random).2).1 ∧
        after =
          { random := (finish (compose alternatives middle.random).1
              (compose alternatives middle.random).2).2
            journal := middle.journal ++ [.expanded info.kind info.id streams.length] } := by
  constructor
  · intro expanded
    rw [expand, locating_ok_iff] at expanded
    obtain ⟨compose, _, composed, expanded⟩ := Computation.bind_ok_iff.mp expanded
    obtain ⟨composes, rfl⟩ := ofExcept_ok_iff.mp composed
    obtain ⟨alternatives, middle, further, expanded⟩ := Computation.bind_ok_iff.mp expanded
    obtain ⟨made, drawn, drawing, expanded⟩ := Computation.bind_ok_iff.mp expanded
    cases drawing
    obtain ⟨finish, _, found, expanded⟩ := Computation.bind_ok_iff.mp expanded
    obtain ⟨finishes, rfl⟩ := ofExcept_ok_iff.mp found
    obtain ⟨finished, _, finishing, expanded⟩ := Computation.bind_ok_iff.mp expanded
    cases finishing
    obtain ⟨_, _, remarked, expanded⟩ := Computation.bind_ok_iff.mp expanded
    cases remarked
    cases expanded
    exact ⟨compose, finish, alternatives, middle, composes, finishes, further, rfl, rfl⟩
  · rintro ⟨compose, finish, alternatives, middle, composes, finishes, further, rfl, rfl⟩
    rw [expand_block_run composes further, locating_ok_iff]
    simp only [finished, finishes]
    rfl

theorem expand_block_ok {info : BlockInfo} {children : List (Tree α)} {engine after : Engine}
    {streams : List (Stream α)}
    (expanded : expand registry (.block info children) engine = (.ok streams, after)) :
    ∃ compose finish alternatives middle random,
      composition registry info.kind info.strategies = .ok compose ∧
      finishing registry info.strategies = .ok finish ∧
      expandAll registry children engine = (.ok alternatives, middle) ∧
      streams = (finish (compose alternatives middle.random).1 random).1 := by
  obtain ⟨compose, finish, alternatives, middle, composes, finishes, further, made, _⟩ :=
    expand_block_ok_iff.mp expanded
  exact ⟨compose, finish, alternatives, middle, _, composes, finishes, further, made⟩

/-- The streams of each child that was expanded on the way are those of its own run, begun
where the children before it had come to an end. -/
theorem expandAll_mem {children : List (Tree α)} {engine after : Engine}
    {alternatives : List (List (Stream α))}
    (expanded : expandAll registry children engine = (.ok alternatives, after)) :
    ∀ streams ∈ alternatives, ∃ number child earlier start finish,
      children[number]? = some child ∧
      expandAll registry (children.take number) engine = (.ok earlier, start) ∧
      expand registry child start = (.ok streams, finish) := by
  induction children generalizing engine alternatives with
  | nil =>
      cases expanded
      simp
  | cons first rest ih =>
      obtain ⟨here, middle, began, expanded⟩ := Computation.bind_ok_iff.mp expanded
      obtain ⟨others, last, further, expanded⟩ := Computation.bind_ok_iff.mp expanded
      cases expanded
      intro streams member
      rcases List.mem_cons.mp member with rfl | later
      · exact ⟨0, first, [], engine, middle, rfl, rfl, began⟩
      · obtain ⟨number, child, earlier, start, finish, found, before, run⟩ :=
          ih further streams later
        refine ⟨number + 1, child, here :: earlier, start, finish, by simpa using found, ?_, run⟩
        rw [List.take_succ_cons, expandAll]
        exact Computation.bind_ok_iff.mpr ⟨here, middle, began,
          Computation.bind_ok_iff.mpr ⟨earlier, start, before, rfl⟩⟩

/-- Each child that was expanded on the way gave the streams that stand in its place. -/
theorem expandAll_at {children : List (Tree α)} {engine after : Engine}
    {alternatives : List (List (Stream α))}
    (expanded : expandAll registry children engine = (.ok alternatives, after)) :
    ∀ {number : Nat} {child : Tree α}, children[number]? = some child →
      ∃ streams earlier start finish, alternatives[number]? = some streams ∧
        expandAll registry (children.take number) engine = (.ok earlier, start) ∧
        expand registry child start = (.ok streams, finish) := by
  induction children generalizing engine alternatives with
  | nil =>
      intro number child found
      cases found
  | cons first rest ih =>
      obtain ⟨here, middle, began, expanded⟩ := Computation.bind_ok_iff.mp expanded
      obtain ⟨others, last, further, expanded⟩ := Computation.bind_ok_iff.mp expanded
      cases expanded
      intro number child found
      cases number with
      | zero =>
          cases found
          exact ⟨here, [], engine, middle, rfl, rfl, began⟩
      | succ number =>
          obtain ⟨streams, earlier, start, finish, listed, before, run⟩ := ih further found
          refine ⟨streams, here :: earlier, start, finish, listed, ?_, run⟩
          rw [List.take_succ_cons, expandAll]
          exact Computation.bind_ok_iff.mpr ⟨here, middle, began,
            Computation.bind_ok_iff.mpr ⟨earlier, start, before, rfl⟩⟩

end TestProgram.Expansion

/-! ## Built-in strategies by their names -/

namespace TestProgram.Strategy

variable {α : Type}

/-- A strategy that is not the default one was named. -/
theorem eq_some_of_getD {name : Option String} {default given : String}
    (named : name.getD default = given) (other : default ≠ given) : name = some given := by
  cases name with
  | none => exact absurd named other
  | some found => exact congrArg some named

theorem ne_some_of_getD {name : Option String} {default given other : String}
    (named : name.getD default = given) (differs : other ≠ given) : name ≠ some other := by
  rintro rfl
  exact differs named

/-- The combinator is the one that was named, or the default one if none was. -/
theorem combinator_cases {name : Option String} {combine : Combinator α}
    (found : builtins.combinator name = .ok combine) :
    (combine = diagonal ∧ name ≠ some "product" ∧ name ≠ some "random") ∨
      (combine = product ∧ name = some "product") ∨
      (combine = randomCombinator ∧ name = some "random") := by
  have listed := KeyMap.mem_ofList (Expansion.mem_of_lookup found)
  simp only [List.mem_cons, Prod.mk.injEq, List.not_mem_nil, or_false] at listed
  rcases listed with ⟨named, rfl⟩ | ⟨named, rfl⟩ | ⟨named, rfl⟩
  · exact .inl ⟨rfl, ne_some_of_getD named (by decide), ne_some_of_getD named (by decide)⟩
  · exact .inr (.inl ⟨rfl, eq_some_of_getD named (by decide)⟩)
  · exact .inr (.inr ⟨rfl, eq_some_of_getD named (by decide)⟩)

theorem permutator_cases {name : Option String} {permute : Permutator α}
    (found : builtins.permutator name = .ok permute) :
    (permute = identity ∧ name ≠ some "random") ∨
      (permute = Draw.shuffle ∧ name = some "random") := by
  have listed := KeyMap.mem_ofList (Expansion.mem_of_lookup found)
  simp only [List.mem_cons, Prod.mk.injEq, List.not_mem_nil, or_false] at listed
  rcases listed with ⟨named, rfl⟩ | ⟨named, rfl⟩
  · exact .inl ⟨rfl, ne_some_of_getD named (by decide)⟩
  · exact .inr ⟨rfl, eq_some_of_getD named (by decide)⟩

theorem compositor_cases {name : Option String} {compose : Compositor α}
    (found : builtins.compositor name = .ok compose) :
    (compose = catenation ∧ name ≠ some "rotation" ∧ name ≠ some "nesting" ∧
        name ≠ some "random") ∨
      (compose = rotation ∧ name = some "rotation") ∨
      (compose = nesting ∧ name = some "nesting") ∨
      (compose = randomCompositor ∧ name = some "random") := by
  have listed := KeyMap.mem_ofList (Expansion.mem_of_lookup found)
  simp only [List.mem_cons, Prod.mk.injEq, List.not_mem_nil, or_false] at listed
  rcases listed with ⟨named, rfl⟩ | ⟨named, rfl⟩ | ⟨named, rfl⟩ | ⟨named, rfl⟩
  · exact .inl ⟨rfl, ne_some_of_getD named (by decide), ne_some_of_getD named (by decide),
      ne_some_of_getD named (by decide)⟩
  · exact .inr (.inl ⟨rfl, eq_some_of_getD named (by decide)⟩)
  · exact .inr (.inr (.inl ⟨rfl, eq_some_of_getD named (by decide)⟩))
  · exact .inr (.inr (.inr ⟨rfl, eq_some_of_getD named (by decide)⟩))

theorem rearranger_cases {name : Option String} {rearrange : Rearranger α}
    (found : builtins.rearranger name = .ok rearrange) :
    (rearrange = identity ∧ name ≠ some "expand" ∧ name ≠ some "random") ∨
      (rearrange = joining ∧ name = some "expand") ∨
      (rearrange = Draw.shuffle ∧ name = some "random") := by
  have listed := KeyMap.mem_ofList (Expansion.mem_of_lookup found)
  simp only [List.mem_cons, Prod.mk.injEq, List.not_mem_nil, or_false] at listed
  rcases listed with ⟨named, rfl⟩ | ⟨named, rfl⟩ | ⟨named, rfl⟩
  · exact .inl ⟨rfl, ne_some_of_getD named (by decide), ne_some_of_getD named (by decide)⟩
  · exact .inr (.inl ⟨rfl, eq_some_of_getD named (by decide)⟩)
  · exact .inr (.inr ⟨rfl, eq_some_of_getD named (by decide)⟩)

theorem permutator_of_plain {name : Option String} (plain : name ≠ some "random")
    {permute : Permutator α} (found : builtins.permutator name = .ok permute) :
    permute = identity := by
  rcases permutator_cases found with ⟨identical, _⟩ | ⟨_, named⟩
  · exact identical
  · exact absurd named plain

/-- No built-in obfuscator changes anything. -/
theorem finishing_ok {strategies : StrategySet} {finish : List (Stream α) → Draw (List (Stream α))}
    (found : Expansion.finishing builtins strategies = .ok finish) :
    ∃ rearrange, builtins.rearranger strategies.rearranger = .ok rearrange ∧
      finish = fun streams => rearrange streams >>= List.mapM identity := by
  obtain ⟨rearrange, rearranges, found⟩ := Except.bind_ok_iff.mp found
  obtain ⟨obfuscate, obfuscates, found⟩ := Except.bind_ok_iff.mp found
  have listed := KeyMap.mem_ofList (Expansion.mem_of_lookup obfuscates)
  simp only [List.mem_singleton, Prod.mk.injEq] at listed
  cases found
  exact ⟨rearrange, rearranges, by rw [listed.2]⟩

end TestProgram.Strategy

/-! ## What streams emit -/

namespace TestProgram

variable {α : Type}

theorem Stream.emissions_concat (streams : List (Stream α)) :
    (Stream.concat streams).emissions = streams.flatMap Stream.emissions := by
  rw [Stream.emissions, Expansion.concat_units, Expansion.flatten_units]

namespace Expansion

theorem emissions_toAtomic (stream : Stream α) :
    stream.toAtomic.emissions = stream.emissions := by
  rw [Stream.toAtomic, Stream.emissions, Stream.ofUnits]
  cases emissions : stream.emissions <;> simp

/-- Streams that are not rearranged at random stay as they are but for where one ends and the
next begins. -/
theorem finishing_following {strategies : StrategySet}
    {finish : List (Stream α) → Draw (List (Stream α))}
    (found : finishing Strategy.builtins strategies = .ok finish) (streams : List (Stream α))
    (settled : strategies.rearranger ≠ some "random") :
    ∃ made, finish streams = pure made ∧
      made.flatMap Stream.emissions = streams.flatMap Stream.emissions := by
  obtain ⟨rearrange, rearranges, rfl⟩ := Strategy.finishing_ok found
  have kept : ∃ made, rearrange streams = pure made ∧
      made.flatMap Stream.emissions = streams.flatMap Stream.emissions := by
    rcases Strategy.rearranger_cases rearranges with ⟨rfl, _⟩ | ⟨rfl, _⟩ | ⟨_, named⟩
    · exact ⟨streams, rfl, rfl⟩
    · refine ⟨Strategy.joined streams, rfl, ?_⟩
      unfold Strategy.joined
      split
      · rename_i empty
        rw [List.isEmpty_iff.mp empty]
      · rw [List.flatMap_singleton, Stream.emissions_concat]
    · exact absurd named settled
  obtain ⟨made, drawn, same⟩ := kept
  refine ⟨made, ?_, same⟩
  simp only [drawn, pure_bind]
  exact (List.mapM_pure (f := id)).trans (by rw [List.map_id])

end Expansion
end TestProgram
