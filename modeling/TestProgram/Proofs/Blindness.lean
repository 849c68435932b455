/-
# TestProgram.Proofs.Blindness -- composition does not look into a call

Changing every emission by a function before streams are composed is the same as changing
it after: built-in strategies move units around and never look inside.  `Along` says so of
one draw, and the registry of a new session is blind entry by entry (`builtins_blind`).
So expanding a changed tree gives the changed streams, makes the same remarks and leaves
the random source in the same state (`expand_map`).  What is composed can therefore carry
along whatever a proof wants to know of it.
-/
import TestProgram.Expansion
import TestProgram.Proofs.Computation
import TestProgram.Proofs.Places
import TestProgram.Strategy.Builtin
import Mathlib.Data.List.Forall2

namespace TestProgram.Strategy

set_option autoImplicit false

variable {α β γ δ : Type}

/-- Making the draw from changed input gives the changed result. -/
def Along (before : α → γ) (after : β → δ) (here : α → Draw β) (there : γ → Draw δ) : Prop :=
  ∀ input, there (before input) = after <$> here input

theorem map_mapM {m : Type → Type} [Monad m] [LawfulMonad m] (change : β → γ) (step : α → m β)
    (items : List α) :
    List.map change <$> items.mapM step = items.mapM (fun item => change <$> step item) := by
  induction items with
  | nil => simp
  | cons item rest ih => simp [← ih, map_bind]

/-! ## Streams -/

theorem concat_map (f : α → β) (streams : List (Stream α)) :
    Stream.concat (streams.map (Stream.map f)) = (Stream.concat streams).map f := by
  apply Stream.ext
  simp [Stream.concat, Stream.map, List.map_flatten, Function.comp_def]

theorem ofUnits_map (f : α → β) (units : List (List α)) :
    Stream.ofUnits (units.map (List.map f)) = (Stream.ofUnits units).map f := by
  apply Stream.ext
  simp [Stream.ofUnits, Stream.map, List.filter_map, Function.comp_def]

theorem toAtomic_map (f : α → β) (stream : Stream α) :
    (stream.map f).toAtomic = stream.toAtomic.map f := by
  rw [Stream.toAtomic, Stream.toAtomic, ← ofUnits_map]
  simp [Stream.emissions, Stream.map, List.map_flatten]

theorem units_map (f : α → β) (streams : List (Stream α)) :
    (streams.map (Stream.map f)).map Stream.units =
      (streams.map Stream.units).map (List.map (List.map f)) := by
  simp [Stream.map, Function.comp_def]

/-! ## Combinators -/

/-- The choices of a child with every alternative changed. -/
def Choices.map (g : α → β) (choices : Choices α) : Choices β :=
  (g choices.1, choices.2.map g)

theorem choices?_map (g : α → β) (children : List (List α)) :
    choices? (children.map (List.map g)) = (choices? children).map (List.map (Choices.map g)) := by
  induction children with
  | nil => rfl
  | cons child rest ih =>
      cases child with
      | nil => simp [choices?]
      | cons first others =>
          simp only [choices?, List.map_cons, List.mapM_cons, Option.bind_eq_bind,
            Option.bind_some, Option.pure_def] at ih ⊢
          rw [ih, Option.bind_map, Option.map_bind]
          rfl

@[simp] theorem length_map (g : α → β) (choices : Choices α) :
    (Choices.map g choices).2.length = choices.2.length := by
  simp [Choices.map]

theorem get_map (g : α → β) (choices : Choices α) (index : Nat) :
    Choices.get (Choices.map g choices) index = g (Choices.get choices index) := by
  simp only [Choices.get, Choices.map, List.getD_eq_getElem?_getD]
  rw [← List.map_cons, List.getElem?_map]
  cases (choices.1 :: choices.2)[index]? <;> rfl

theorem longest_map (g : α → β) (children : List (Choices α)) :
    longest (children.map (Choices.map g)) = longest children := by
  simp [longest, Function.comp_def]

theorem lockstep_map (g : α → β) (children : List (Choices α)) :
    lockstep (children.map (Choices.map g)) = List.map g ∘ lockstep children := by
  funext index
  simp [lockstep, get_map, Function.comp_def]

theorem diagonal_along (f : α → β) :
    Along (List.map (List.map (Stream.map f))) (List.map (List.map (Stream.map f)))
      diagonal diagonal := by
  intro children
  unfold diagonal
  rw [choices?_map]
  cases choices? children with
  | none => rfl
  | some choices => simp [longest_map, lockstep_map]

theorem products_map (g : α → β) : ∀ children : List (List α),
    products (children.map (List.map g)) = (products children).map (List.map g)
  | [] => rfl
  | alternatives :: rest => by
      simp [products, products_map g rest, List.map_flatMap, List.flatMap_map, Function.comp_def]

theorem product_along (f : α → β) :
    Along (List.map (List.map (Stream.map f))) (List.map (List.map (Stream.map f)))
      product product := by
  intro children
  simp [product, products_map]

theorem drawChoice_map (g : α → β) (choices : Choices α) :
    drawChoice (Choices.map g choices) = g <$> drawChoice choices := by
  simp [drawChoice, get_map]

theorem drawCombinations_map (g : α → β) (children : List (Choices α)) (count : Nat) :
    drawCombinations (children.map (Choices.map g)) count =
      List.map (List.map g) <$> drawCombinations children count := by
  induction count with
  | zero => simp [drawCombinations]
  | succ count ih =>
      have first : (children.map (Choices.map g)).mapM drawChoice =
          List.map g <$> children.mapM drawChoice := by
        rw [List.mapM_map, map_mapM]
        simp only [Function.comp_def, drawChoice_map]
      simp [drawCombinations, first, ih, map_bind, bind_map_left]

theorem randomCombinator_along (f : α → β) :
    Along (List.map (List.map (Stream.map f))) (List.map (List.map (Stream.map f)))
      randomCombinator randomCombinator := by
  intro children
  unfold randomCombinator
  rw [choices?_map]
  cases choices? children with
  | none => rfl
  | some choices => simp [longest_map, drawCombinations_map]

/-! ## Orders -/

theorem identity_along (g : α → β) : Along g g identity identity := by
  intro input
  simp [identity]

theorem swapIfInBounds_map (g : α → β) (items : Array α) (i j : Nat) :
    (items.map g).swapIfInBounds i j = (items.swapIfInBounds i j).map g := by
  ext k
  · simp
  · simp only [Array.getElem_swapIfInBounds, Array.getElem_map, Array.size_map]
    split
    · rfl
    · split <;> rfl

theorem shuffleFrom_map (g : α → β) (place : Nat) : ∀ items : Array α,
    Draw.shuffleFrom place (items.map g) = Array.map g <$> Draw.shuffleFrom place items := by
  induction place with
  | zero => intro items; simp [Draw.shuffleFrom]
  | succ place ih => intro items; simp [Draw.shuffleFrom, swapIfInBounds_map, ih]

theorem shuffle_along (g : α → β) : Along (List.map g) (List.map g) Draw.shuffle Draw.shuffle := by
  intro items
  have arrays : (items.map g).toArray = items.toArray.map g := by simp
  simp only [Draw.shuffle, arrays, shuffleFrom_map, List.length_map]
  simp

theorem joining_along (f : α → β) :
    Along (List.map (Stream.map f)) (List.map (Stream.map f)) joining joining := by
  intro streams
  simp only [joining, joined, List.isEmpty_map, concat_map, map_pure]
  split <;> rfl

/-! ## Compositors -/

theorem catenation_along (f : α → β) :
    Along (List.map (Stream.map f)) (Stream.map f) catenation catenation := by
  intro streams
  simp [catenation, concat_map]

theorem columns_map (g : α → β) (lists : List (List α)) :
    columns (lists.map (List.map g)) = (columns lists).map g := by
  have each : ∀ place, column (lists.map (List.map g)) place = (column lists place).map g := by
    intro place
    simp [column, List.filterMap_map, List.map_filterMap]
  simp [columns, List.map_flatMap, Function.comp_def, funext each]

theorem rotation_along (f : α → β) :
    Along (List.map (Stream.map f)) (Stream.map f) rotation rotation := by
  intro streams
  simp only [rotation, units_map, columns_map, ofUnits_map, map_pure]

theorem splice_map (g : α → β) (outer : List α) (place : Nat) (inner : List α) :
    splice (outer.map g) place (inner.map g) = (splice outer place inner).map g := by
  simp [splice]

theorem nesting_along (f : α → β) :
    Along (List.map (Stream.map f)) (Stream.map f) nesting nesting := by
  intro streams
  induction streams with
  | nil => rfl
  | cons outer rest ih =>
      have units : ∀ stream : Stream α, (stream.map f).units = stream.units.map (List.map f) :=
        fun stream => rfl
      simp only [nesting, List.map_cons, nest] at ih ⊢
      rw [ih]
      simp [units, splice_map, ofUnits_map]

/-- The first item taken and the lists left, with every item changed. -/
def Taken.map (g : α → β) (taken : α × List (List α)) : β × List (List β) :=
  (g taken.1, taken.2.map (List.map g))

theorem takeFirst_map (g : α → β) (lists : List (List α)) : ∀ pick : Nat,
    takeFirst pick (lists.map (List.map g)) = (takeFirst pick lists).map (Taken.map g) := by
  induction lists with
  | nil => intro pick; rfl
  | cons list rest ih =>
      intro pick
      cases list with
      | nil => simp [takeFirst, ih, Function.comp_def, Taken.map]
      | cons first others =>
          simp only [List.map_cons, takeFirst, List.length_map]
          split
          · rfl
          · simp [ih, Function.comp_def, Taken.map]

theorem interleave_map (g : α → β) (left : Nat) : ∀ lists : List (List α),
    interleave left (lists.map (List.map g)) = List.map g <$> interleave left lists := by
  induction left with
  | zero => intro lists; simp [interleave]
  | succ left ih =>
      intro lists
      simp only [interleave, takeFirst_map, map_bind]
      congr 1
      funext pick
      cases takeFirst pick lists with
      | none => exact ih lists
      | some taken => simp [Taken.map, ih]

theorem randomCompositor_along (f : α → β) :
    Along (List.map (Stream.map f)) (Stream.map f) randomCompositor randomCompositor := by
  intro streams
  have sizes : ((streams.map (Stream.map f)).map Stream.units).map List.length =
      (streams.map Stream.units).map List.length := by
    simp [Stream.map, Function.comp_def]
  simp only [randomCompositor, sizes]
  rw [units_map, interleave_map]
  simp [ofUnits_map]

/-! ## Registries -/

section Tables

variable {σ τ : Type} {R : σ → τ → Prop}

/-- Tables with the same keys and related values. -/
def Alike (R : σ → τ → Prop) (here : KeyMap σ) (there : KeyMap τ) : Prop :=
  List.Forall₂ (fun entry other => entry.1 = other.1 ∧ R entry.2 other.2) here there

theorem insert_alike {here : KeyMap σ} {there : KeyMap τ} (alike : Alike R here there)
    (key : String) {value : σ} {other : τ} (related : R value other) :
    Alike R (here.insert key value) (there.insert key other) := by
  induction alike with
  | nil => exact .cons ⟨rfl, related⟩ .nil
  | @cons entry counterpart rest others pair later ih =>
      obtain ⟨first, held⟩ := entry
      obtain ⟨name, kept⟩ := counterpart
      obtain ⟨rfl, same⟩ := pair
      simp only [KeyMap.insert]
      split
      · exact .cons ⟨rfl, related⟩ later
      · split
        · exact .cons ⟨rfl, related⟩ (.cons ⟨rfl, same⟩ later)
        · exact .cons ⟨rfl, same⟩ ih

theorem ofList_alike {pairs : List (String × σ)} {others : List (String × τ)}
    (alike : Alike R pairs others) : Alike R (KeyMap.ofList pairs) (KeyMap.ofList others) := by
  have grown : ∀ {here : KeyMap σ} {there : KeyMap τ}, Alike R here there →
      Alike R (pairs.foldl (fun table pair => table.insert pair.1 pair.2) here)
        (others.foldl (fun table pair => table.insert pair.1 pair.2) there) := by
    induction alike with
    | nil => exact fun so_far => so_far
    | @cons entry counterpart rest later pair _ ih =>
        intro here there so_far
        obtain ⟨first, held⟩ := entry
        obtain ⟨name, kept⟩ := counterpart
        obtain ⟨rfl, related⟩ := pair
        exact ih (insert_alike so_far first related)
  exact grown .nil

/-- Two outcomes: related values, or the same fault. -/
inductive Agree (R : σ → τ → Prop) : Except Fault σ → Except Fault τ → Prop
  | ok {value : σ} {other : τ} (related : R value other) : Agree R (.ok value) (.ok other)
  | error (fault : Fault) : Agree R (.error fault) (.error fault)

theorem Agree.bind {σ' τ' : Type} {S : σ' → τ' → Prop} {here : Except Fault σ}
    {there : Except Fault τ} {next : σ → Except Fault σ'} {further : τ → Except Fault τ'}
    (agree : Agree R here there)
    (later : ∀ value other, R value other → Agree S (next value) (further other)) :
    Agree S (here >>= next) (there >>= further) := by
  cases agree with
  | ok related => exact later _ _ related
  | error fault => exact .error fault

theorem lookup_agree {here : KeyMap σ} {there : KeyMap τ} (alike : Alike R here there)
    (option : StrategyOption) (name : Option String) :
    Agree R (Registry.lookup here option name) (Registry.lookup there option name) := by
  have found : Option.Rel R (here.find? (name.getD option.default))
      (there.find? (name.getD option.default)) := by
    induction alike with
    | nil => exact .none
    | @cons entry counterpart rest others pair _ ih =>
        obtain ⟨first, held⟩ := entry
        obtain ⟨key, kept⟩ := counterpart
        obtain ⟨rfl, related⟩ := pair
        simp only [KeyMap.find?]
        split
        · exact .some related
        · exact ih
  simp only [Registry.lookup]
  generalize here.find? (name.getD option.default) = strategy at found
  generalize there.find? (name.getD option.default) = counterpart at found
  cases found with
  | none => exact .error _
  | some related => exact .ok related

end Tables

/-- Two registries with the same names, the strategies of one blind to the change that
takes its streams to those of the other. -/
structure Blind (f : α → β) (here : Registry α) (there : Registry β) : Prop where
  combinators : Alike (Along (List.map (List.map (Stream.map f)))
    (List.map (List.map (Stream.map f)))) here.combinators there.combinators
  permutators : Alike (Along (List.map (Stream.map f)) (List.map (Stream.map f)))
    here.permutators there.permutators
  compositors : Alike (Along (List.map (Stream.map f)) (Stream.map f))
    here.compositors there.compositors
  rearrangers : Alike (Along (List.map (Stream.map f)) (List.map (Stream.map f)))
    here.rearrangers there.rearrangers
  obfuscators : Alike (Along (Stream.map f) (Stream.map f)) here.obfuscators there.obfuscators

theorem builtins_blind (f : α → β) : Blind f builtins builtins where
  combinators := ofList_alike
    (.cons ⟨rfl, diagonal_along f⟩ (.cons ⟨rfl, product_along f⟩
      (.cons ⟨rfl, randomCombinator_along f⟩ .nil)))
  permutators := ofList_alike
    (.cons ⟨rfl, identity_along _⟩ (.cons ⟨rfl, shuffle_along _⟩ .nil))
  compositors := ofList_alike
    (.cons ⟨rfl, catenation_along f⟩ (.cons ⟨rfl, rotation_along f⟩
      (.cons ⟨rfl, nesting_along f⟩ (.cons ⟨rfl, randomCompositor_along f⟩ .nil))))
  rearrangers := ofList_alike
    (.cons ⟨rfl, identity_along _⟩ (.cons ⟨rfl, joining_along f⟩
      (.cons ⟨rfl, shuffle_along _⟩ .nil)))
  obfuscators := ofList_alike (.cons ⟨rfl, identity_along _⟩ .nil)

end TestProgram.Strategy

/-! ## Expansion -/

namespace TestProgram.Expansion

open Strategy

variable {α β : Type} {f : α → β} {here : Registry α} {there : Registry β}

theorem mapM_along {γ δ γ' δ' : Type} {before : γ → δ} {after : γ' → δ'} {draw : γ → Draw γ'}
    {other : δ → Draw δ'} (along : Along before after draw other) :
    Along (List.map before) (List.map after) (List.mapM draw) (List.mapM other) := by
  intro items
  rw [List.mapM_map, map_mapM]
  simp only [Function.comp_def, along _]

theorem freely_along {combine : Combinator α} {combine' : Combinator β} {permute : Permutator α}
    {permute' : Permutator β} {compose : Compositor α} {compose' : Compositor β}
    (combines : Along (List.map (List.map (Stream.map f))) (List.map (List.map (Stream.map f)))
      combine combine')
    (permutes : Along (List.map (Stream.map f)) (List.map (Stream.map f)) permute permute')
    (composes : Along (List.map (Stream.map f)) (Stream.map f) compose compose') :
    Along (List.map (List.map (Stream.map f))) (List.map (Stream.map f))
      (freely combine permute compose) (freely combine' permute' compose') := by
  have each : Along (List.map (Stream.map f)) (Stream.map f)
      (fun combination => permute combination >>= compose)
      (fun combination => permute' combination >>= compose') := by
    intro combination
    simp only [permutes _, bind_map_left, composes _, map_bind]
  intro children
  simp only [freely, combines _, bind_map_left, mapM_along each _, map_bind]

theorem composition_agree (blind : Blind f here there) (kind : BlockKind)
    (strategies : StrategySet) :
    Agree (Along (List.map (List.map (Stream.map f))) (List.map (Stream.map f)))
      (composition here kind strategies) (composition there kind strategies) := by
  have flatten : ∀ children : List (List (Stream α)),
      (children.map (List.map (Stream.map f))).flatten = children.flatten.map (Stream.map f) :=
    fun children => List.map_flatten.symm
  cases kind with
  | sequence =>
      refine .ok (fun children => ?_)
      simp only [flatten, concat_map, map_pure, List.map_cons, List.map_nil]
  | atomic =>
      refine .ok (fun children => ?_)
      simp only [flatten, concat_map, toAtomic_map, map_pure, List.map_cons, List.map_nil]
  | iterate =>
      refine .ok (fun children => ?_)
      simp only [flatten, map_pure]
  | free =>
      refine (lookup_agree blind.combinators _ _).bind (fun combine combine' combines => ?_)
      refine (lookup_agree blind.permutators _ _).bind (fun permute permute' permutes => ?_)
      refine (lookup_agree blind.compositors _ _).bind (fun compose compose' composes => ?_)
      exact .ok (freely_along combines permutes composes)

theorem finishing_agree (blind : Blind f here there) (strategies : StrategySet) :
    Agree (Along (List.map (Stream.map f)) (List.map (Stream.map f)))
      (finishing here strategies) (finishing there strategies) := by
  refine (lookup_agree blind.rearrangers _ _).bind (fun rearrange rearrange' rearranges => ?_)
  refine (lookup_agree blind.obfuscators _ _).bind (fun obfuscate obfuscate' obfuscates => ?_)
  refine .ok (fun streams => ?_)
  simp only [rearranges _, bind_map_left, mapM_along obfuscates _, map_bind]

/-- The same outcome and the same engine, with the change made to the result. -/
theorem ofExcept_bind_map {σ τ γ δ : Type} {R : σ → τ → Prop} {change : γ → δ}
    {outcome : Except Fault σ} {other : Except Fault τ} {next : σ → Generation γ}
    {further : τ → Generation δ} (agree : Agree R outcome other)
    (later : ∀ value counterpart, R value counterpart →
      further counterpart = change <$> next value) :
    (Generation.ofExcept other >>= further) =
      change <$> (Generation.ofExcept outcome >>= next) := by
  rw [map_bind]
  cases agree with
  | ok related =>
      funext engine
      rw [Computation.bind_run, Computation.bind_run]
      exact congrFun (later _ _ related) engine
  | error fault => rfl

theorem map_run {γ δ : Type} (change : γ → δ) (body : Generation γ) (engine : Engine) :
    (change <$> body) engine = (change <$> (body engine).1, (body engine).2) := by
  rw [← bind_pure_comp, Computation.bind_run]
  rcases body engine with ⟨_ | _, _⟩ <;> rfl

theorem locating_map {γ δ : Type} (change : γ → δ) (location : Option Location)
    (body : Generation γ) :
    Generation.locating location (change <$> body) =
      change <$> Generation.locating location body := by
  funext engine
  simp only [Generation.locating, map_run]
  rcases body engine with ⟨_ | _, _⟩ <;> rfl

theorem draw_map {γ δ : Type} (change : γ → δ) (draw : Draw γ) :
    Generation.draw (change <$> draw) = change <$> Generation.draw draw := rfl

/-- The blocks of a tree find blind strategies in two registries. -/
def BlindOn (f : α → β) (here : Registry α) (there : Registry β) (tree : Tree α) : Prop :=
  ∀ place info children, tree.node? place = some (.block info children) →
    Agree (Along (List.map (List.map (Stream.map f))) (List.map (Stream.map f)))
      (composition here info.kind info.strategies)
      (composition there info.kind info.strategies) ∧
    Agree (Along (List.map (Stream.map f)) (List.map (Stream.map f)))
      (finishing here info.strategies) (finishing there info.strategies)

theorem BlindOn.below {tree node : Tree α} {outer : List Nat} (blind : BlindOn f here there tree)
    (found : tree.node? outer = some node) : BlindOn f here there node := by
  intro place info children inside
  refine blind (outer ++ place) info children ?_
  rw [Tree.node?_append, found]
  exact inside

theorem BlindOn.child {info : BlockInfo} {children : List (Tree α)}
    (blind : BlindOn f here there (.block info children)) :
    ∀ child ∈ children, BlindOn f here there child := by
  intro child member
  obtain ⟨number, found⟩ := List.mem_iff_getElem?.mp member
  have below : Tree.node? (.block info children) [number] = some child := by
    simp [Tree.node?, found]
  exact blind.below below

theorem blind_on (blind : Blind f here there) (tree : Tree α) :
    BlindOn f here there tree :=
  fun _ info _ _ =>
    ⟨composition_agree blind info.kind info.strategies, finishing_agree blind info.strategies⟩

theorem expandAll_map (children : List (Tree α))
    (each : ∀ child ∈ children,
      expand there (child.map f) = List.map (Stream.map f) <$> expand here child) :
    expandAll there (Tree.mapAll f children) =
      List.map (List.map (Stream.map f)) <$> expandAll here children := by
  induction children with
  | nil => rfl
  | cons child rest ih =>
      have later := ih (fun other member => each other (by simp [member]))
      simp only [Tree.mapAll, expandAll, each child (by simp), later, bind_map_left, map_bind,
        map_pure, List.map_cons]

/-- **Composition is blind to what it composes.**  Expanding a changed tree gives the changed
streams, from the same draws and with the same remarks. -/
theorem expand_map (tree : Tree α) : BlindOn f here there tree →
    expand there (tree.map f) = List.map (Stream.map f) <$> expand here tree := by
  induction tree using Tree.induction with
  | leaf call => exact fun _ => rfl
  | block info children ih =>
      intro blind
      obtain ⟨composes, finishes⟩ := blind [] info children rfl
      have children_map := expandAll_map children
        (fun child member => ih child member (blind.child child member))
      have finished_map : ∀ streams, finished there info (streams.map (Stream.map f)) =
          List.map (Stream.map f) <$> finished here info streams := by
        intro streams
        refine ofExcept_bind_map finishes (fun finish counterpart along => ?_)
        rw [along, draw_map, bind_map_left, map_bind]
        simp
      simp only [Tree.map, expand]
      rw [← locating_map]
      congr 1
      refine ofExcept_bind_map composes (fun compose counterpart along => ?_)
      rw [children_map, bind_map_left, map_bind]
      simp only [along _, draw_map, bind_map_left, map_bind, finished_map]

end TestProgram.Expansion
