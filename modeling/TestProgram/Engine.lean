/-
# TestProgram.Engine -- generation: drawing, failing and remarking

What turns a sealed tree into instructions takes words from the random source and
makes remarks, and it may fail.  Words taken and remarks made before a failure stay
taken and made, so the state is kept beside the outcome.
-/
import TestProgram.Distribution
import TestProgram.Journal

namespace TestProgram

set_option autoImplicit false

structure Engine where
  random : Random
  journal : Journal := []

def Engine.ofSeed (seed : Nat) : Engine :=
  { random := Random.ofSeed seed }

abbrev Generation (α : Type) := ExceptT Fault (StateM Engine) α

namespace Generation

variable {α : Type}

def remark (remark : Remark) : Generation Unit :=
  modify (fun engine => { engine with journal := engine.journal ++ [remark] })

def draw (draw : Draw α) : Generation α := fun engine =>
  let (result, random) := draw engine.random
  (.ok result, { engine with random })

def sample (sampler : Distribution.Sampler α) : Generation α := fun engine =>
  let (outcome, random) := sampler engine.random
  (outcome, { engine with random })

def ofExcept (outcome : Except Fault α) : Generation α := fun engine => (outcome, engine)

/-- The same computation, with a location for a fault that has none. -/
def locating (location : Option Location) (body : Generation α) : Generation α := fun engine =>
  let (outcome, engine) := body engine
  (outcome.mapError (fun fault => fault.locate? location), engine)

end Generation
end TestProgram
