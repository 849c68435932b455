/-
# TestProgram.BlockId -- blocks named by their place in the tree

A block is named by the child numbers on the way to it from the root.  A block
encloses itself and everything below it, so `encloses` is "is an initial stretch
of" on the two paths.
-/
namespace TestProgram

set_option autoImplicit false

structure BlockId where
  path : List Nat
deriving DecidableEq, Repr, Inhabited

namespace BlockId

def root : BlockId := ⟨[]⟩

def child (id : BlockId) (index : Nat) : BlockId :=
  ⟨id.path ++ [index]⟩

def isAncestorOf (outer inner : BlockId) : Bool :=
  decide (outer.path.length < inner.path.length) && outer.path.isPrefixOf inner.path

def encloses (outer inner : BlockId) : Bool :=
  outer == inner || outer.isAncestorOf inner

def render (id : BlockId) : String :=
  String.join ("root" :: id.path.map (fun index => "." ++ toString index))

def comparePaths : List Nat → List Nat → Ordering
  | [], [] => .eq
  | [], _ :: _ => .lt
  | _ :: _, [] => .gt
  | i :: rest, j :: others => (compare i j).then (comparePaths rest others)

instance : Ord BlockId := ⟨fun a b => comparePaths a.path b.path⟩

end BlockId
end TestProgram
