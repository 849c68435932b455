/-
# TestProgram.BlockOptions -- what a block is opened with

A block is opened with strategies and free attributes.  In a table of attributes the
keys that name a strategy option set the strategies, the others are kept.
-/
import TestProgram.Fault

namespace TestProgram

set_option autoImplicit false

structure BlockOptions where
  strategies : StrategySet := {}
  attributes : Attributes := []

namespace BlockOptions

def add (options : BlockOptions) (key : String) (value : Attribute) :
    Except Fault BlockOptions :=
  match StrategyOption.ofName? key with
  | none => .ok { options with attributes := options.attributes.insert key value }
  | some option =>
      match value.text? with
      | some name => .ok { options with strategies := options.strategies.set option name }
      | none => .error (Fault.of (.strategyNotNamed option value.shape))

def ofAttributes (attributes : Attributes) : Except Fault BlockOptions :=
  attributes.foldlM (fun (options : BlockOptions) entry => options.add entry.1 entry.2) {}

end BlockOptions
end TestProgram
