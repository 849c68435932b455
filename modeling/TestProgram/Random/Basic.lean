/-
# TestProgram.Random.Basic -- the random source and what is drawn from it

A source is a stream of words and how many of them have been taken; `ofSeed` gives
the source of a seed.  `Draw` is a computation that takes words.  Everything drawn
comes from three shapes of draw: `uniform` and `uniformShort` take a number below a
bound from long and short words, and `weighted` takes one below a total of weights.

A long word is two words, the low half first.  A bound `n` is met by rejection: a
word `v` is scaled to `v * n / 2 ^ bits`, and it is rejected when the low half of
`v * n` lies in the zone that would favour some results.  After `patience`
rejections the last word counts anyway, so a draw always ends, and its result is
below the bound whatever the words are.
-/
import TestProgram.Random.ChaCha

namespace TestProgram

set_option autoImplicit false

structure Random where
  /-- The word at each index. -/
  words : Nat → UInt32
  position : Nat := 0
  seed : Nat := 0

def Random.ofSeed (seed : Nat) : Random :=
  let key := Random.ChaCha.key seed
  { words := Random.ChaCha.stream key, seed }

/-- A computation that takes words from a random source. -/
abbrev Draw (α : Type) := StateM Random α

namespace Draw

def word : Draw Nat := fun random =>
  ((random.words random.position).toNat, { random with position := random.position + 1 })

def long : Draw Nat := do
  let low ← word
  let high ← word
  pure (low + high * MachineWord.short)

def patience : Nat := 256

/-- A word scaled down to `n`, where low halves above `zone` are rejected. -/
def scaled (next : Draw Nat) (size zone n : Nat) : Nat → Draw Nat
  | 0 => do
      let v ← next
      pure (v * n / size)
  | tries + 1 => do
      let v ← next
      if v * n % size ≤ zone then pure (v * n / size)
      else scaled next size zone n tries

/-- `n` moved up to the top of a word of `bits` bits, less one. -/
def topZone (bits n : Nat) : Nat :=
  n <<< (bits - 1 - n.log2) - 1

/-- A number from `0` to `n`, from long words. -/
def uniform (n : Nat) : Draw Nat :=
  scaled long MachineWord.long (topZone 64 (n + 1)) (n + 1) patience

/-- A number from `0` to `n`, from short words. -/
def uniformShort (n : Nat) : Draw Nat :=
  scaled word MachineWord.short (topZone 32 (n + 1)) (n + 1) patience

/-- A number below a total of weights. -/
def weighted (total : Nat) : Draw Nat :=
  let excess := (MachineWord.long - total) % total
  scaled long MachineWord.long (MachineWord.long - 1 - excess) total patience

/-- An integer from `lowest` to `highest`.  A range as wide as the words takes a word
as it is, as the integer of the range that is congruent to it. -/
def integer (lowest highest : Int) : Draw Int := do
  let width := (highest - lowest + 1).toNat
  if width < MachineWord.long then
    let offset ← uniform (width - 1)
    pure (lowest + offset)
  else
    let v ← long
    pure (lowest + ((v : Int) - lowest) % MachineWord.long)

/-- The results of the same draw, made `n` times. -/
def times {α : Type} (draw : Draw α) : Nat → Draw (List α)
  | 0 => pure []
  | n + 1 => do
      let first ← draw
      let rest ← times draw n
      pure (first :: rest)

/-! ## Order -/

/-- Exchange the item at each place, from the last down to the second, with one at or
before it. -/
def shuffleFrom {α : Type} : Nat → Array α → Draw (Array α)
  | 0, items => pure items
  | place + 1, items => do
      let other ← uniformShort (place + 1)
      shuffleFrom place (items.swapIfInBounds (place + 1) other)

def shuffle {α : Type} (items : List α) : Draw (List α) := do
  let shuffled ← shuffleFrom (items.length - 1) items.toArray
  pure shuffled.toList

end Draw
end TestProgram
