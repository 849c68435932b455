/-
# TestProgram.Strategy.Extra -- strategies that a template can register

These are not known to a session from the start.  `mark` exists for every option
and leaves a suffix on the names of what it has handled; `reverse` turns the order of
streams around; `twice` repeats every sequence; `jitter` moves every integer
argument up by a drawn digit.
-/
import TestProgram.Call
import TestProgram.Strategy.Basic

namespace TestProgram.Strategy

set_option autoImplicit false

inductive Extra
  | mark | reverse | twice | jitter
deriving DecidableEq, Repr

namespace Extra

def renamed (mark : String) (stream : Stream Call) : Stream Call :=
  stream.map (fun call => { call with name := call.name ++ mark })

/-- The sum as a signed word of 64 bits. -/
def wrappedSum (number : Int) (step : Nat) : Int :=
  MachineWord.signed (number + step)

def raised (step : Nat) : Argument → Argument
  | .value (.integer number) => .value (.integer (wrappedSum number step))
  | argument => argument

def jitterArgument : Argument → Draw Argument
  | .value (.integer number) => do
      let v ← Draw.word
      pure (.value (.integer (wrappedSum number (v % 10))))
  | argument => pure argument

def jitterCall (call : Call) : Draw Call := do
  let arguments ← call.arguments.mapM jitterArgument
  pure { call with arguments }

/-- One combination of all streams of all children. -/
def markCombinator : Combinator Call := fun children =>
  pure [children.flatten.map (renamed ".com")]

def markPermutator : Permutator Call := fun streams =>
  pure (streams.reverse.map (renamed ".per"))

def markCompositor : Compositor Call := fun streams =>
  pure (renamed ".cmp" (Stream.concat streams))

def markRearranger : Rearranger Call := fun streams =>
  pure (streams.map (renamed ".rea"))

def markObfuscator : Obfuscator Call := fun stream =>
  pure ((renamed ".obf" stream).map
    (fun call => { call with arguments := call.arguments.map (raised 100) }))

def reversePermutator : Permutator Call := fun streams => pure streams.reverse

def twiceRearranger : Rearranger Call := fun streams =>
  pure (streams.flatMap (fun stream => [stream, stream]))

def jitterObfuscator : Obfuscator Call := fun stream => do
  let units ← stream.units.mapM (fun unit => unit.mapM jitterCall)
  pure (Stream.ofUnits units)

/-- The registry with this strategy under a name of an option; unchanged if the
strategy does not fit the option. -/
def register (registry : Registry Call) (name : String) :
    StrategyOption → Extra → Registry Call
  | .combinator, .mark => registry.registerCombinator name markCombinator
  | .permutator, .mark => registry.registerPermutator name markPermutator
  | .compositor, .mark => registry.registerCompositor name markCompositor
  | .rearranger, .mark => registry.registerRearranger name markRearranger
  | .obfuscator, .mark => registry.registerObfuscator name markObfuscator
  | .permutator, .reverse => registry.registerPermutator name reversePermutator
  | .rearranger, .twice => registry.registerRearranger name twiceRearranger
  | .obfuscator, .jitter => registry.registerObfuscator name jitterObfuscator
  | _, _ => registry

end Extra
end TestProgram.Strategy
