/-
# TestProgram.Stream -- runs of emissions in indivisible units

A stream is an ordered run of emissions, cut into units that composition moves
around but never splits.  No unit is without emissions: `ofUnits` leaves such units
out, and every other operation keeps what it is given.
-/
namespace TestProgram

set_option autoImplicit false

universe u v

structure Stream (α : Type u) where
  units : List (List α)
  filled : ∀ unit ∈ units, unit ≠ []
deriving DecidableEq, Repr

namespace Stream

variable {α : Type u} {β : Type v}

@[ext] theorem ext {first second : Stream α} (same : first.units = second.units) :
    first = second := by
  cases first
  cases second
  cases same
  rfl

def empty : Stream α := ⟨[], by simp⟩

def single (emission : α) : Stream α := ⟨[[emission]], by simp⟩

def ofUnits (units : List (List α)) : Stream α :=
  ⟨units.filter (fun unit => !unit.isEmpty), by
    intro unit member
    simpa using (List.mem_filter.mp member).2⟩

def append (first second : Stream α) : Stream α :=
  ⟨first.units ++ second.units, by
    intro unit member
    rcases List.mem_append.mp member with held | held
    · exact first.filled unit held
    · exact second.filled unit held⟩

/-- One stream after another. -/
def concat (streams : List (Stream α)) : Stream α :=
  ⟨(streams.map units).flatten, by
    intro unit member
    obtain ⟨held, source, inside⟩ := List.mem_flatten.mp member
    obtain ⟨stream, _, rfl⟩ := List.mem_map.mp source
    exact stream.filled unit inside⟩

def emissions (stream : Stream α) : List α :=
  stream.units.flatten

/-- All units merged into one. -/
def toAtomic (stream : Stream α) : Stream α :=
  ofUnits [stream.emissions]

def length (stream : Stream α) : Nat :=
  stream.emissions.length

def isEmpty (stream : Stream α) : Bool :=
  stream.units.isEmpty

def map (f : α → β) (stream : Stream α) : Stream β :=
  ⟨stream.units.map (List.map f), by
    intro unit member
    obtain ⟨held, source, rfl⟩ := List.mem_map.mp member
    simpa using stream.filled held source⟩

end Stream
end TestProgram
