/-
# TestProgram.Strategy.Basic -- strategies and their registry

A free block first combines the alternatives of its children, then orders each
combination, then composes it into one stream; every block may then rearrange its
streams and perturb each of them.  A `Registry` holds the strategies of a session
by name, one table for each option.
-/
import TestProgram.Fault
import TestProgram.Random.Basic
import TestProgram.Stream

namespace TestProgram

set_option autoImplicit false

/-- Alternatives of each child to combinations of one stream per child. -/
abbrev Combinator (α : Type) := List (List (Stream α)) → Draw (List (List (Stream α)))

/-- The streams of one combination in a new order. -/
abbrev Permutator (α : Type) := List (Stream α) → Draw (List (Stream α))

/-- Parallel streams to one. -/
abbrev Compositor (α : Type) := List (Stream α) → Draw (Stream α)

/-- The repeated emissions of a block in a new order. -/
abbrev Rearranger (α : Type) := List (Stream α) → Draw (List (Stream α))

/-- The values of one stream perturbed, its structure left alone. -/
abbrev Obfuscator (α : Type) := Stream α → Draw (Stream α)

structure Registry (α : Type) where
  combinators : KeyMap (Combinator α) := []
  permutators : KeyMap (Permutator α) := []
  compositors : KeyMap (Compositor α) := []
  rearrangers : KeyMap (Rearranger α) := []
  obfuscators : KeyMap (Obfuscator α) := []

namespace Registry

variable {α : Type}

def empty : Registry α := {}

def registerCombinator (registry : Registry α) (name : String) (strategy : Combinator α) :
    Registry α :=
  { registry with combinators := registry.combinators.insert name strategy }

def registerPermutator (registry : Registry α) (name : String) (strategy : Permutator α) :
    Registry α :=
  { registry with permutators := registry.permutators.insert name strategy }

def registerCompositor (registry : Registry α) (name : String) (strategy : Compositor α) :
    Registry α :=
  { registry with compositors := registry.compositors.insert name strategy }

def registerRearranger (registry : Registry α) (name : String) (strategy : Rearranger α) :
    Registry α :=
  { registry with rearrangers := registry.rearrangers.insert name strategy }

def registerObfuscator (registry : Registry α) (name : String) (strategy : Obfuscator α) :
    Registry α :=
  { registry with obfuscators := registry.obfuscators.insert name strategy }

/-! ## Looking strategies up -/

/-- The entry of a table, by the name given or the one the option has by default. -/
def lookup {β : Type} (table : KeyMap β) (option : StrategyOption) (name : Option String) :
    Except Fault β :=
  let name := name.getD option.default
  match table.find? name with
  | some strategy => .ok strategy
  | none => .error (Fault.of (.unknownStrategy option name))

def combinator (registry : Registry α) (name : Option String) : Except Fault (Combinator α) :=
  lookup registry.combinators .combinator name

def permutator (registry : Registry α) (name : Option String) : Except Fault (Permutator α) :=
  lookup registry.permutators .permutator name

def compositor (registry : Registry α) (name : Option String) : Except Fault (Compositor α) :=
  lookup registry.compositors .compositor name

def rearranger (registry : Registry α) (name : Option String) : Except Fault (Rearranger α) :=
  lookup registry.rearrangers .rearranger name

def obfuscator (registry : Registry α) (name : Option String) : Except Fault (Obfuscator α) :=
  lookup registry.obfuscators .obfuscator name

def knows (registry : Registry α) (option : StrategyOption) (name : String) : Bool :=
  match option with
  | .combinator => registry.combinators.contains name
  | .permutator => registry.permutators.contains name
  | .compositor => registry.compositors.contains name
  | .rearranger => registry.rearrangers.contains name
  | .obfuscator => registry.obfuscators.contains name

/-- Whether the strategy of an option is there, by name or by default. -/
def find (registry : Registry α) (option : StrategyOption) (name : Option String) :
    Except Fault Unit :=
  if registry.knows option (name.getD option.default) then .ok ()
  else .error (Fault.of (.unknownStrategy option (name.getD option.default)))

/-- Every strategy that a block names must be registered. -/
def check (registry : Registry α) (strategies : StrategySet) : Except Fault Unit :=
  match strategies.attached.find? (fun (option, name) => !registry.knows option name) with
  | some (option, name) => .error (Fault.of (.unknownStrategy option name))
  | none => .ok ()

end Registry

/-- Combinators, permutators and compositors make sense in free blocks only. -/
def StrategySet.validate (strategies : StrategySet) (kind : BlockKind) : Except Fault Unit :=
  match strategies.misplaced kind with
  | [] => .ok ()
  | options => .error (Fault.of (.misplacedStrategies options kind))

end TestProgram
