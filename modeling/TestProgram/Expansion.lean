/-
# TestProgram.Expansion -- from a sealed tree to its streams

`expand` gives the streams that a tree stands for.  A call is one stream of one
emission.  The children of a sequence follow each other in one stream, those of an
atomic block are merged into one unit besides, those of an iterate block are streams
of their own, and those of a free block are combined, ordered and composed by its
strategies.  The streams of every block are then rearranged and perturbed.

The strategies of a free block's composition are looked up before its children are
expanded, the other two after; a fault gets the location of the innermost block
that has one.
-/
import TestProgram.Engine
import TestProgram.Strategy.Basic
import TestProgram.Tree

namespace TestProgram

set_option autoImplicit false

namespace Expansion

variable {α : Type}

/-- How the alternatives of a block's children become streams. -/
abbrev Composition (α : Type) := List (List (Stream α)) → Draw (List (Stream α))

def freely (combine : Combinator α) (permute : Permutator α) (compose : Compositor α) :
    Composition α := fun children => do
  let combinations ← combine children
  combinations.mapM (fun combination => do
    let ordered ← permute combination
    compose ordered)

/-- The composition of a block of this kind. -/
def composition (registry : Registry α) (kind : BlockKind) (strategies : StrategySet) :
    Except Fault (Composition α) :=
  match kind with
  | .sequence => .ok (fun children => pure [Stream.concat children.flatten])
  | .atomic => .ok (fun children => pure [(Stream.concat children.flatten).toAtomic])
  | .iterate => .ok (fun children => pure children.flatten)
  | .free => do
      let combine ← registry.combinator strategies.combinator
      let permute ← registry.permutator strategies.permutator
      let compose ← registry.compositor strategies.compositor
      .ok (freely combine permute compose)

/-- What happens to the streams of a block of any kind. -/
def finishing (registry : Registry α) (strategies : StrategySet) :
    Except Fault (List (Stream α) → Draw (List (Stream α))) := do
  let rearrange ← registry.rearranger strategies.rearranger
  let obfuscate ← registry.obfuscator strategies.obfuscator
  .ok (fun streams => do
    let rearranged ← rearrange streams
    rearranged.mapM obfuscate)

/-- The streams of a block rearranged and perturbed. -/
def finished (registry : Registry α) (info : BlockInfo) (streams : List (Stream α)) :
    Generation (List (Stream α)) := do
  let finish ← Generation.ofExcept (finishing registry info.strategies)
  let streams ← Generation.draw (finish streams)
  Generation.remark (.expanded info.kind info.id streams.length)
  pure streams

mutual

def expand (registry : Registry α) : Tree α → Generation (List (Stream α))
  | .leaf call => pure [Stream.single call]
  | .block info children =>
      Generation.locating info.location do
        let compose ← Generation.ofExcept (composition registry info.kind info.strategies)
        let alternatives ← expandAll registry children
        let streams ← Generation.draw (compose alternatives)
        finished registry info streams

/-- The alternatives of every child, in order. -/
def expandAll (registry : Registry α) : List (Tree α) → Generation (List (List (Stream α)))
  | [] => pure []
  | child :: rest => do
      let streams ← expand registry child
      let others ← expandAll registry rest
      pure (streams :: others)

end

end Expansion
end TestProgram
