/-
# TestProgram.Strategy.Builtin -- the strategies every session knows

Combinators: `diagonal` walks all children in lockstep and starts a child that has
run out again; `product` makes every combination, the first child varying slowest;
`random` takes as many combinations as the longest child has alternatives, each
alternative drawn.  Compositors: `catenation`, `rotation` (one unit of each stream in
turn), `nesting` (each stream inside the one before it) and `random` (an
interleaving).  None of them looks into an emission, so they are defined for
streams of any kind, and none of them splits a unit.
-/
import TestProgram.Strategy.Basic

namespace TestProgram.Strategy

set_option autoImplicit false

variable {α : Type}

/-! ## Combinators -/

/-- The alternatives of a child that has some: the first one, and the others. -/
abbrev Choices (β : Type) := β × List β

/-- All children's choices, unless some child has none. -/
def choices? {β : Type} (children : List (List β)) : Option (List (Choices β)) :=
  children.mapM (fun
    | [] => none
    | first :: others => some (first, others))

def Choices.get {β : Type} (choices : Choices β) (index : Nat) : β :=
  (choices.1 :: choices.2).getD index choices.1

def longest {β : Type} (children : List (Choices β)) : Nat :=
  (children.map (fun choices => choices.2.length + 1)).foldl max 0

/-- Combination `index` of the lockstep: every child at that index, counted around. -/
def lockstep {β : Type} (children : List (Choices β)) (index : Nat) : List β :=
  children.map (fun choices => Choices.get choices (index % (choices.2.length + 1)))

def diagonal : Combinator α := fun children =>
  match choices? children with
  | none => pure []
  | some children => pure ((List.range (longest children)).map (lockstep children))

def products {β : Type} : List (List β) → List (List β)
  | [] => [[]]
  | alternatives :: rest =>
      alternatives.flatMap (fun alternative => (products rest).map (alternative :: ·))

def product : Combinator α := fun children => pure (products children)

def drawChoice {β : Type} (choices : Choices β) : Draw β := do
  let index ← Draw.uniform choices.2.length
  pure (Choices.get choices index)

def drawCombinations {β : Type} (children : List (Choices β)) : Nat → Draw (List (List β))
  | 0 => pure []
  | count + 1 => do
      let combination ← children.mapM drawChoice
      let rest ← drawCombinations children count
      pure (combination :: rest)

def randomCombinator : Combinator α := fun children =>
  match choices? children with
  | none => pure []
  | some children => drawCombinations children (longest children)

/-! ## Permutators, rearrangers and obfuscators -/

def identity {β : Type} (items : β) : Draw β := pure items

/-- All streams joined into one, if there are any. -/
def joined (streams : List (Stream α)) : List (Stream α) :=
  if streams.isEmpty then [] else [Stream.concat streams]

def joining : Rearranger α := fun streams => pure (joined streams)

/-! ## Compositors -/

def catenation : Compositor α := fun streams => pure (Stream.concat streams)

/-- The items at one place of every list that reaches so far. -/
def column {β : Type} (lists : List (List β)) (place : Nat) : List β :=
  lists.filterMap (fun list => list[place]?)

/-- All columns, one after another. -/
def columns {β : Type} (lists : List (List β)) : List β :=
  (List.range ((lists.map List.length).foldl max 0)).flatMap (column lists)

def rotation : Compositor α := fun streams =>
  pure (Stream.ofUnits (columns (streams.map Stream.units)))

/-- The inner list whole inside the outer one, behind its first `place` items. -/
def splice {β : Type} (outer : List β) (place : Nat) (inner : List β) : List β :=
  outer.take place ++ inner ++ outer.drop place

def nest : List (Stream α) → Draw (Stream α)
  | [] => pure Stream.empty
  | outer :: rest => do
      let inner ← nest rest
      let place ← Draw.uniform outer.units.length
      pure (Stream.ofUnits (splice outer.units place inner.units))

def nesting : Compositor α := nest

/-- The first item of the list in which the item number `pick` of all lists stands, and
the lists without it. -/
def takeFirst {β : Type} (pick : Nat) : List (List β) → Option (β × List (List β))
  | [] => none
  | [] :: rest => (takeFirst pick rest).map (fun (item, left) => (item, [] :: left))
  | (first :: others) :: rest =>
      if pick ≤ others.length then some (first, others :: rest)
      else
        (takeFirst (pick - (others.length + 1)) rest).map
          (fun (item, left) => (item, (first :: others) :: left))

/-- Every item is as likely to be picked as any other, so every interleaving is as
likely as any other. -/
def interleave {β : Type} : Nat → List (List β) → Draw (List β)
  | 0, _ => pure []
  | left + 1, lists => do
      let pick ← Draw.uniform left
      match takeFirst pick lists with
      | none => interleave left lists
      | some (item, lists) => do
          let rest ← interleave left lists
          pure (item :: rest)

def randomCompositor : Compositor α := fun streams => do
  let lists := streams.map Stream.units
  let units ← interleave ((lists.map List.length).foldr (· + ·) 0) lists
  pure (Stream.ofUnits units)

/-! ## The registry of a new session -/

def builtins : Registry α where
  combinators := KeyMap.ofList
    [("diagonal", diagonal), ("product", product), ("random", randomCombinator)]
  permutators := KeyMap.ofList [("trivial", identity), ("random", Draw.shuffle)]
  compositors := KeyMap.ofList
    [("catenation", catenation), ("rotation", rotation), ("nesting", nesting),
     ("random", randomCompositor)]
  rearrangers := KeyMap.ofList
    [("trivial", identity), ("expand", joining), ("random", Draw.shuffle)]
  obfuscators := KeyMap.ofList [("trivial", identity)]

end TestProgram.Strategy
