/-
# TestProgram.Proofs.CheckedStrategies -- built-in strategies never go wrong on their way

A strategy is defined on all that it may be given: the combinators set children without
alternatives apart, and an item is taken from a list that has one.  Written out over indexes and
counts, the same strategies have steps that could go wrong.  A number is drawn below a bound that
may be zero, an index is counted around a length that may be zero, a length is taken from a
number that may be smaller, and an index may lie outside its list.

Here they are written out so, with every one of these steps checked: a `Checked` computation
stops with a `Mishap` where its operands are not as they must be.  `Computes` says that such a
program never stops, takes the same words and comes to the same result as the strategy, and
`builtins_safe` says it of each strategy that a new session knows, whatever its streams and its
random source are.  What guards each step is local: no child is empty, the longest child sets the
number of rounds, and the count of units that are left is the sum of what the streams have left
(`takeAt_eq`).
-/
import TestProgram.Proofs.Blindness
import TestProgram.Proofs.Conservation

namespace TestProgram

set_option autoImplicit false

/-- What a step meets when its operands are not as they must be. -/
inductive Mishap
  | emptyRange
  | zeroDivisor
  | belowZero
  | outsideList
deriving DecidableEq, Repr

/-- A draw that stops at the first step whose operands are not as they must be. -/
abbrev Checked (α : Type) := ExceptT Mishap Draw α

namespace Checked

variable {α β : Type}

/-! ## Steps -/

/-- A number below a bound, from long words. -/
def below (bound : Nat) : Checked Nat :=
  if bound = 0 then throw .emptyRange else (Draw.uniform (bound - 1) : Draw Nat)

/-- A number below a bound, from short words. -/
def belowShort (bound : Nat) : Checked Nat :=
  if bound = 0 then throw .emptyRange else (Draw.uniformShort (bound - 1) : Draw Nat)

def remainder (number divisor : Nat) : Checked Nat :=
  if divisor = 0 then throw .zeroDivisor else pure (number % divisor)

def minus (number less : Nat) : Checked Nat :=
  if number < less then throw .belowZero else pure (number - less)

def item (list : List β) (index : Nat) : Checked β :=
  match list[index]? with
  | some item => pure item
  | none => throw .outsideList

/-- The list cut in two at a place. -/
def cut (list : List β) (place : Nat) : Checked (List β × List β) :=
  if list.length < place then throw .outsideList else pure (list.take place, list.drop place)

def swap (items : Array β) (place other : Nat) : Checked (Array β) :=
  if place < items.size ∧ other < items.size then pure (items.swapIfInBounds place other)
  else throw .outsideList

theorem remainder_eq {divisor : Nat} (positive : 0 < divisor) (number : Nat) :
    remainder number divisor = pure (number % divisor) :=
  if_neg (by omega)

theorem minus_eq {number less : Nat} (enough : less ≤ number) :
    minus number less = pure (number - less) :=
  if_neg (by omega)

theorem item_eq {list : List β} {index : Nat} {held : β} (found : list[index]? = some held) :
    item list index = pure held := by
  simp only [item, found]

theorem cut_eq {list : List β} {place : Nat} (inside : place ≤ list.length) :
    cut list place = pure (list.take place, list.drop place) :=
  if_neg (by omega)

theorem swap_eq {items : Array β} {place other : Nat} (here : place < items.size)
    (there : other < items.size) :
    swap items place other = pure (items.swapIfInBounds place other) :=
  if_pos ⟨here, there⟩

/-! ## Programs that never stop -/

/-- The program runs to its end, with the result of the draw and the words that it takes. -/
def Computes (program : Checked α) (draw : Draw α) : Prop :=
  ∀ random, program random = (.ok (draw random).1, (draw random).2)

theorem computes_pure (value : α) : Computes (pure value) (pure value) :=
  fun _ => rfl

theorem computes_draw (draw : Draw α) : Computes (liftM draw) draw :=
  fun _ => rfl

/-- The second step may rely on what is always true of the result of the first. -/
theorem Computes.bind {P : α → Prop} {first : Checked α} {draw : Draw α} {next : α → Checked β}
    {further : α → Draw β} (here : Computes first draw) (always : Draw.Always draw P)
    (there : ∀ value, P value → Computes (next value) (further value)) :
    Computes (first >>= next) (draw >>= further) := by
  intro random
  show (ExceptT.bindCont next (first random).1 : Draw (Except Mishap β)) (first random).2 = _
  rw [here random]
  exact there _ (always random) (draw random).2

theorem Computes.bind_any {first : Checked α} {draw : Draw α} {next : α → Checked β}
    {further : α → Draw β} (here : Computes first draw)
    (there : ∀ value, Computes (next value) (further value)) :
    Computes (first >>= next) (draw >>= further) :=
  here.bind (P := fun _ => True) (fun _ => trivial) (fun value _ => there value)

theorem computes_mapM {step : α → Checked β} {draw : α → Draw β} (items : List α)
    (each : ∀ item, Computes (step item) (draw item)) :
    Computes (items.mapM step) (items.mapM draw) := by
  induction items with
  | nil =>
      rw [List.mapM_nil, List.mapM_nil]
      exact computes_pure []
  | cons item rest ih =>
      rw [List.mapM_cons, List.mapM_cons]
      exact (each item).bind_any (fun first => ih.bind_any (fun others => computes_pure _))

theorem below_computes (last : Nat) : Computes (below (last + 1)) (Draw.uniform last) :=
  computes_draw (Draw.uniform last)

theorem belowShort_computes (last : Nat) :
    Computes (belowShort (last + 1)) (Draw.uniformShort last) :=
  computes_draw (Draw.uniformShort last)

/-! ## Combinators -/

/-- The number of rounds: the length of the longest child. -/
def rounds (children : List (List β)) : Nat :=
  (children.map List.length).foldl max 0

def diagonal (children : List (List (Stream α))) : Checked (List (List (Stream α))) :=
  if children.any List.isEmpty then pure []
  else
    (List.range (rounds children)).mapM (fun round => children.mapM (fun alternatives => do
      let index ← remainder round alternatives.length
      item alternatives index))

def randomCombinator (children : List (List (Stream α))) : Checked (List (List (Stream α))) :=
  if children.any List.isEmpty then pure []
  else
    (List.range (rounds children)).mapM (fun _ => children.mapM (fun alternatives => do
      let index ← below alternatives.length
      item alternatives index))

section Combinators

variable {children : List (List β)} {choices : List (Strategy.Choices β)}

theorem any_isEmpty_of_none (unfilled : Strategy.choices? children = none) :
    children.any List.isEmpty = true := by
  by_contra all_filled
  have filled : ∀ child ∈ children, child ≠ [] := by
    rintro child member rfl
    exact all_filled (List.any_eq_true.mpr ⟨[], member, rfl⟩)
  obtain ⟨each, found⟩ := Strategy.choices?_of_filled filled
  rw [found] at unfilled
  cases unfilled

theorem not_any_isEmpty_of_some (filled : Strategy.choices? children = some choices) :
    ¬ children.any List.isEmpty = true := by
  rw [Strategy.choices?_eq_some filled]
  intro some_empty
  obtain ⟨child, member, empty⟩ := List.any_eq_true.mp some_empty
  obtain ⟨choice, _, rfl⟩ := List.mem_map.mp member
  cases empty

theorem rounds_eq (filled : Strategy.choices? children = some choices) :
    rounds children = Strategy.longest choices := by
  rw [Strategy.choices?_eq_some filled, rounds, Strategy.longest, List.map_map]
  rfl

theorem item_choice {choice : Strategy.Choices β} {index : Nat}
    (inside : index < choice.2.length + 1) :
    item (choice.1 :: choice.2) index = pure (Strategy.Choices.get choice index) := by
  apply item_eq
  rw [Strategy.Choices.get, List.getD_eq_getElem?_getD]
  rw [List.getElem?_eq_getElem (by simpa using inside)]
  rfl

end Combinators

theorem diagonal_computes (children : List (List (Stream α))) :
    Computes (diagonal children) (Strategy.diagonal children) := by
  unfold diagonal Strategy.diagonal
  cases filled : Strategy.choices? children with
  | none =>
      rw [if_pos (any_isEmpty_of_none filled)]
      exact computes_pure []
  | some choices =>
      rw [if_neg (not_any_isEmpty_of_some filled), rounds_eq filled,
        Strategy.choices?_eq_some filled]
      have each : ∀ (round : Nat) (choice : Strategy.Choices (Stream α)),
          (do let index ← remainder round (choice.1 :: choice.2).length
              item (choice.1 :: choice.2) index) =
            pure (Strategy.Choices.get choice (round % (choice.2.length + 1))) := by
        intro round choice
        rw [List.length_cons, remainder_eq (Nat.succ_pos _), pure_bind]
        exact item_choice (Nat.mod_lt _ (Nat.succ_pos _))
      simp only [List.mapM_map, Function.comp_def, each, List.mapM_pure]
      exact computes_pure _

/-- The same step stops at a child without alternatives, which the test keeps out. -/
example (random : Random) :
    (do let index ← remainder 0 ([] : List Nat).length
        item [] index : Checked Nat) random = (.error .zeroDivisor, random) :=
  rfl

theorem drawChoice_computes (choice : Strategy.Choices β) :
    Computes (do
        let index ← below (choice.1 :: choice.2).length
        item (choice.1 :: choice.2) index)
      (Strategy.drawChoice choice) := by
  refine (below_computes choice.2.length).bind (Draw.uniform_le _) (fun index inside => ?_)
  rw [item_choice (Nat.lt_succ_of_le inside)]
  exact computes_pure _

theorem drawCombinations_computes (choices : List (Strategy.Choices β)) (indexes : List Nat) :
    Computes
      (indexes.mapM (fun _ => (choices.map (fun choice => choice.1 :: choice.2)).mapM
        (fun alternatives => do
          let index ← below alternatives.length
          item alternatives index)))
      (Strategy.drawCombinations choices indexes.length) := by
  have combination := computes_mapM choices drawChoice_computes
  induction indexes with
  | nil =>
      rw [List.mapM_nil]
      exact computes_pure []
  | cons index rest ih =>
      rw [List.mapM_cons, List.length_cons, Strategy.drawCombinations, List.mapM_map]
      rw [List.mapM_map] at ih
      exact combination.bind_any (fun first => ih.bind_any (fun others => computes_pure _))

theorem randomCombinator_computes (children : List (List (Stream α))) :
    Computes (randomCombinator children) (Strategy.randomCombinator children) := by
  unfold randomCombinator Strategy.randomCombinator
  cases filled : Strategy.choices? children with
  | none =>
      rw [if_pos (any_isEmpty_of_none filled)]
      exact computes_pure []
  | some choices =>
      have drawn := drawCombinations_computes choices (List.range (Strategy.longest choices))
      rw [List.length_range] at drawn
      rw [if_neg (not_any_isEmpty_of_some filled), rounds_eq filled,
        Strategy.choices?_eq_some filled]
      exact drawn

/-! ## Shuffling -/

/-- Exchange the item at each place, from this one down to the second, with one at or before
it. -/
def shuffleFrom : Nat → Array β → Checked (Array β)
  | 0, items => pure items
  | place + 1, items => do
      let other ← belowShort (place + 2)
      let items ← swap items (place + 1) other
      shuffleFrom place items

def shuffle (items : List β) : Checked (List β) :=
  match items.length with
  | 0 => pure items
  | last + 1 => do
      let shuffled ← shuffleFrom last items.toArray
      pure shuffled.toList

theorem uniformShort_le (n : Nat) : Draw.Always (Draw.uniformShort n) (· ≤ n) :=
  (Draw.scaled_lt Draw.word_lt (Nat.succ_pos n) _ _).mono (fun _ => Nat.le_of_lt_succ)

theorem shuffleFrom_computes (place : Nat) : ∀ items : Array β,
    place < items.size ∨ place = 0 →
      Computes (shuffleFrom place items) (Draw.shuffleFrom place items) := by
  induction place with
  | zero => exact fun items _ => computes_pure items
  | succ place ih =>
      intro items inside
      refine (belowShort_computes (place + 1)).bind (uniformShort_le _) (fun other before => ?_)
      rw [swap_eq (by omega) (by omega), pure_bind]
      apply ih
      rw [Array.size_swapIfInBounds]
      omega

theorem shuffle_computes (items : List β) : Computes (shuffle items) (Draw.shuffle items) := by
  unfold shuffle Draw.shuffle
  cases count : items.length with
  | zero =>
      rw [List.eq_nil_of_length_eq_zero count]
      exact computes_pure []
  | succ last =>
      have inside : last < items.toArray.size := by
        rw [List.size_toArray, count]
        exact Nat.lt_succ_self last
      exact (shuffleFrom_computes last _ (.inl inside)).bind_any (fun shuffled => computes_pure _)

/-! ## Compositors -/

/-- Each stream inside the one before it, from the last one on. -/
def nesting (streams : List (Stream α)) : Checked (Stream α) :=
  streams.reverse.foldlM (fun inner outer => do
      let place ← below (outer.units.length + 1)
      let (front, back) ← cut outer.units place
      pure (Stream.ofUnits (front ++ inner.units ++ back)))
    Stream.empty

/-- Go along the lists with a number that goes down by the length of each list passed, and take
the first item of the list in which it ends up. -/
def takeAt (pick : Nat) : List (List β) → Checked (Option β × List (List β))
  | [] => pure (none, [])
  | list :: rest =>
      if pick < list.length then pure (list.head?, list.tail :: rest)
      else do
        let pick ← minus pick list.length
        let (taken, rest) ← takeAt pick rest
        pure (taken, list :: rest)

/-- As long as items are left, one is drawn; `left` is the count of them. -/
def merge : Nat → List (List β) → Checked (List β)
  | 0, _ => pure []
  | left + 1, lists => do
      let pick ← below (left + 1)
      let (taken, lists) ← takeAt pick lists
      let others ← merge left lists
      pure (taken.toList ++ others)

def randomCompositor (streams : List (Stream α)) : Checked (Stream α) := do
  let lists := streams.map Stream.units
  let units ← merge ((lists.map List.length).foldr (· + ·) 0) lists
  pure (Stream.ofUnits units)

theorem nesting_computes (streams : List (Stream α)) :
    Computes (nesting streams) (Strategy.nesting streams) := by
  rw [nesting, List.foldlM_reverse]
  induction streams with
  | nil => exact computes_pure Stream.empty
  | cons outer rest ih =>
      rw [List.foldrM_cons]
      refine ih.bind_any (fun inner => ?_)
      refine (below_computes outer.units.length).bind (Draw.uniform_le _) (fun place inside => ?_)
      rw [cut_eq inside, pure_bind]
      exact computes_pure _

/-- A number below the count of all items ends up in a list that has some. -/
theorem takeAt_eq (lists : List (List β)) : ∀ pick, pick < Interleaving.size lists →
    ∃ held left, Strategy.takeFirst pick lists = some (held, left) ∧
      takeAt pick lists = pure (some held, left) := by
  induction lists with
  | nil =>
      intro pick inside
      exact absurd inside (Nat.not_lt_zero pick)
  | cons list rest ih =>
      intro pick inside
      have counted : Interleaving.size (list :: rest) =
          list.length + Interleaving.size rest := rfl
      by_cases here : pick < list.length
      · cases list with
        | nil => exact absurd here (Nat.not_lt_zero pick)
        | cons first others =>
            refine ⟨first, others :: rest, ?_, ?_⟩
            · rw [Strategy.takeFirst, if_pos (Nat.le_of_lt_succ here)]
            · rw [takeAt, if_pos here]
              rfl
      · obtain ⟨held, left, taken, checked⟩ := ih (pick - list.length) (by omega)
        refine ⟨held, list :: left, ?_, ?_⟩
        · cases list with
          | nil =>
              rw [Strategy.takeFirst]
              rw [List.length_nil, Nat.sub_zero] at taken
              rw [taken]
              rfl
          | cons first others =>
              rw [Strategy.takeFirst, if_neg (fun le => here (Nat.lt_succ_of_le le))]
              rw [List.length_cons] at taken
              rw [taken]
              rfl
        · rw [takeAt, if_neg here, minus_eq (Nat.le_of_not_lt here), pure_bind, checked, pure_bind]

theorem merge_computes (left : Nat) : ∀ lists : List (List β), Interleaving.size lists = left →
    Computes (merge left lists) (Strategy.interleave left lists) := by
  induction left with
  | zero => exact fun lists _ => computes_pure []
  | succ left ih =>
      intro lists counted
      refine (below_computes left).bind (Draw.uniform_le left) (fun pick inside => ?_)
      obtain ⟨before, held, rest, after, rfl, first⟩ :=
        Interleaving.takeFirst_step lists pick (by omega)
      obtain ⟨item, others, taken, checked⟩ :=
        takeAt_eq (before ++ (held :: rest) :: after) pick (by omega)
      rw [first] at taken
      cases taken
      rw [Interleaving.size_step] at counted
      rw [first, checked, pure_bind]
      exact (ih _ (by omega)).bind_any (fun others => computes_pure _)

theorem randomCompositor_computes (streams : List (Stream α)) :
    Computes (randomCompositor streams) (Strategy.randomCompositor streams) :=
  (merge_computes _ _ rfl).bind_any (fun _ => computes_pure _)

/-! ## All built-in strategies -/

/-- Programs by name, one table for each option. -/
structure Programs (α : Type) where
  combinators : KeyMap (List (List (Stream α)) → Checked (List (List (Stream α))))
  permutators : KeyMap (List (Stream α) → Checked (List (Stream α)))
  compositors : KeyMap (List (Stream α) → Checked (Stream α))
  rearrangers : KeyMap (List (Stream α) → Checked (List (Stream α)))
  obfuscators : KeyMap (Stream α → Checked (Stream α))

/-- A strategy that has no step to check. -/
def plain {σ τ : Type} (strategy : σ → Draw τ) (input : σ) : Checked τ :=
  liftM (strategy input)

def builtins : Programs α where
  combinators := KeyMap.ofList
    [("diagonal", diagonal), ("product", plain Strategy.product), ("random", randomCombinator)]
  permutators := KeyMap.ofList [("trivial", plain Strategy.identity), ("random", shuffle)]
  compositors := KeyMap.ofList
    [("catenation", plain Strategy.catenation), ("rotation", plain Strategy.rotation),
     ("nesting", nesting), ("random", randomCompositor)]
  rearrangers := KeyMap.ofList
    [("trivial", plain Strategy.identity), ("expand", plain Strategy.joining), ("random", shuffle)]
  obfuscators := KeyMap.ofList [("trivial", plain Strategy.identity)]

/-- Whatever it is given, the program computes the strategy. -/
def Runs {σ τ : Type} (strategy : σ → Draw τ) (program : σ → Checked τ) : Prop :=
  ∀ input, Computes (program input) (strategy input)

/-- Every strategy of the registry is computed by the program of its name. -/
structure Safe (registry : Registry α) (programs : Programs α) : Prop where
  combinators : Strategy.Alike Runs registry.combinators programs.combinators
  permutators : Strategy.Alike Runs registry.permutators programs.permutators
  compositors : Strategy.Alike Runs registry.compositors programs.compositors
  rearrangers : Strategy.Alike Runs registry.rearrangers programs.rearrangers
  obfuscators : Strategy.Alike Runs registry.obfuscators programs.obfuscators

theorem plain_runs {σ τ : Type} (strategy : σ → Draw τ) : Runs strategy (plain strategy) :=
  fun input => computes_draw (strategy input)

/-- No built-in strategy draws from an empty range, divides by zero, goes below zero or reaches
outside a list. -/
theorem builtins_safe : Safe (Strategy.builtins : Registry α) builtins where
  combinators := Strategy.ofList_alike
    (.cons ⟨rfl, diagonal_computes⟩ (.cons ⟨rfl, plain_runs _⟩
      (.cons ⟨rfl, randomCombinator_computes⟩ .nil)))
  permutators := Strategy.ofList_alike
    (.cons ⟨rfl, plain_runs _⟩ (.cons ⟨rfl, shuffle_computes⟩ .nil))
  compositors := Strategy.ofList_alike
    (.cons ⟨rfl, plain_runs _⟩ (.cons ⟨rfl, plain_runs _⟩
      (.cons ⟨rfl, nesting_computes⟩ (.cons ⟨rfl, randomCompositor_computes⟩ .nil))))
  rearrangers := Strategy.ofList_alike
    (.cons ⟨rfl, plain_runs _⟩ (.cons ⟨rfl, plain_runs _⟩ (.cons ⟨rfl, shuffle_computes⟩ .nil)))
  obfuscators := Strategy.ofList_alike (.cons ⟨rfl, plain_runs _⟩ .nil)

end Checked
end TestProgram
