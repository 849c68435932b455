/-
# TestProgram.Tree -- composition trees

A tree has calls as its leaves and blocks as its inner nodes.  Nothing here looks
into a call, so the type of the leaves is a parameter.
-/
import TestProgram.BlockId
import TestProgram.BlockKind
import TestProgram.Attribute
import TestProgram.Location

namespace TestProgram

set_option autoImplicit false

universe u v

/-- What is known of a block besides its children. -/
structure BlockInfo where
  id : BlockId
  kind : BlockKind
  strategies : StrategySet := {}
  attributes : Attributes := []
  location : Option Location := none

inductive Tree (α : Type u)
  | leaf (call : α)
  | block (info : BlockInfo) (children : List (Tree α))

/-- A sealed block: a tree that is not a single call. -/
structure Block (α : Type u) where
  info : BlockInfo
  children : List (Tree α)

def Block.toTree {α : Type u} (block : Block α) : Tree α :=
  .block block.info block.children

namespace Tree

variable {α : Type u} {β : Type v}

mutual

/-- The calls of a tree in the order of their declaration. -/
def calls : Tree α → List α
  | .leaf call => [call]
  | .block _ children => callsOf children

def callsOf : List (Tree α) → List α
  | [] => []
  | child :: rest => calls child ++ callsOf rest

end

mutual

def map (f : α → β) : Tree α → Tree β
  | .leaf call => .leaf (f call)
  | .block info children => .block info (mapAll f children)

def mapAll (f : α → β) : List (Tree α) → List (Tree β)
  | [] => []
  | child :: rest => map f child :: mapAll f rest

end

end Tree

def Block.calls {α : Type u} (block : Block α) : List α :=
  Tree.callsOf block.children

end TestProgram
