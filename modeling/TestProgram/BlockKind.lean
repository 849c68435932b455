/-
# TestProgram.BlockKind -- how a block emits its children, and by which strategies

There are four kinds of block.  A block may name up to five strategies, one for
each `StrategyOption`; the first three of them make sense only where children are
combined freely.
-/
namespace TestProgram

set_option autoImplicit false

/-- `atomic`: the children form one indivisible unit; `sequence`: they follow each
other; `iterate`: each is one iteration; `free`: the strategies combine them. -/
inductive BlockKind
  | atomic | sequence | iterate | free
deriving DecidableEq, Repr

def BlockKind.name : BlockKind → String
  | .atomic => "atomic"
  | .sequence => "sequence"
  | .iterate => "iterate"
  | .free => "block"

inductive StrategyOption
  | combinator | permutator | compositor | rearranger | obfuscator
deriving DecidableEq, Repr

namespace StrategyOption

def name : StrategyOption → String
  | .combinator => "combinator"
  | .permutator => "permutator"
  | .compositor => "compositor"
  | .rearranger => "rearranger"
  | .obfuscator => "obfuscator"

/-- In the order in which they apply. -/
def all : List StrategyOption :=
  [.combinator, .permutator, .compositor, .rearranger, .obfuscator]

def ofName? (name : String) : Option StrategyOption :=
  all.find? (fun option => option.name == name)

/-- The options that apply to free composition only. -/
def isFree : StrategyOption → Bool
  | .combinator | .permutator | .compositor => true
  | _ => false

/-- The strategy taken when a block names none. -/
def default : StrategyOption → String
  | .combinator => "diagonal"
  | .permutator => "trivial"
  | .compositor => "catenation"
  | .rearranger => "trivial"
  | .obfuscator => "trivial"

end StrategyOption

structure StrategySet where
  combinator : Option String := none
  permutator : Option String := none
  compositor : Option String := none
  rearranger : Option String := none
  obfuscator : Option String := none
deriving DecidableEq, Repr

namespace StrategySet

def get? (strategies : StrategySet) : StrategyOption → Option String
  | .combinator => strategies.combinator
  | .permutator => strategies.permutator
  | .compositor => strategies.compositor
  | .rearranger => strategies.rearranger
  | .obfuscator => strategies.obfuscator

def set (strategies : StrategySet) (option : StrategyOption) (name : String) : StrategySet :=
  match option with
  | .combinator => { strategies with combinator := some name }
  | .permutator => { strategies with permutator := some name }
  | .compositor => { strategies with compositor := some name }
  | .rearranger => { strategies with rearranger := some name }
  | .obfuscator => { strategies with obfuscator := some name }

/-- The options with a strategy of their own, each with its name. -/
def attached (strategies : StrategySet) : List (StrategyOption × String) :=
  StrategyOption.all.filterMap (fun option => (strategies.get? option).map (option, ·))

/-- The attached options that a block of this kind cannot use. -/
def misplaced (strategies : StrategySet) (kind : BlockKind) : List StrategyOption :=
  if kind = .free then []
  else StrategyOption.all.filter
    (fun option => option.isFree && (strategies.get? option).isSome)

end StrategySet
end TestProgram
