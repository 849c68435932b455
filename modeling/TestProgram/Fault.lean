/-
# TestProgram.Fault -- what can go wrong

A fault has a cause, perhaps a location, and notes.  Each way to go wrong is a
`Cause`; its kind and its wording are functions of it.  On its way out of nested
statements a fault is given the location of each of them by `locate`, which keeps the
first span it was given, or the first location if it never got a span.
-/
import TestProgram.Attribute
import TestProgram.BlockKind
import TestProgram.Label
import TestProgram.Location
import TestProgram.Phase

namespace TestProgram

set_option autoImplicit false

inductive FaultKind
  /-- A malformed configuration, an unfit strategy or something set up twice. -/
  | configuration
  /-- A value of the wrong shape. -/
  | type
  | range
  /-- A name that refers to nothing in sight. -/
  | resolution
  | notImplemented
  /-- A template or settings file that cannot be read as one. -/
  | malformed
deriving DecidableEq, Repr

def FaultKind.name : FaultKind → String
  | .configuration => "configuration error"
  | .type => "type error"
  | .range => "range error"
  | .resolution => "resolution error"
  | .notImplemented => "not implemented"
  | .malformed => "syntax error"

inductive Cause
  -- distributions and random draws
  | noRanges
  | emptyCollection
  | biasNotPositive (bias : Int)
  | weightNotPositive
  | malformedDistribution
  | emptyRandomRange (lowest highest : Int)
  -- labels and references
  | slotOutside (index : Int)
  | emptyBits (low high : Nat)
  | disjointBits (low high : Nat)
  | unresolvedLabel (reference : LabelReference)
  | globalDeclaredTwice (name : String)
  -- attributes
  | notScalar (what : String) (found : Shape)
  | strategyNotNamed (option : StrategyOption) (found : Shape)
  | notTable (what : String) (found : Shape)
  -- blocks
  | misplacedStrategies (options : List StrategyOption) (kind : BlockKind)
  | unknownStrategy (option : StrategyOption) (name : String)
  | blockOutsidePhase (kind : BlockKind)
  | outsideBlock (what : String)
  | innerBlockOpen (closed innermost : BlockId)
  | blockNotOpen (id : BlockId)
  | blocksLeftOpen (count : Nat) (phase : PhaseKind)
  -- memory sections
  | unnamedSection
  | nestedSection (inner outer : String)
  -- data
  | dataConfiguredTwice
  | definedTwice (id kind : String)
  | dataNotConfigured
  | noDataRegion
  | dataRegionOpen
  | unknownDefinition (id : String)
  | notOneLength (id : String)
  | notStrings (id : String) (found : Shape)
  | dataValueShape
  | alignmentTooLarge (items : Nat)
  | originShape (found : Attribute)
  | originNegative (address : Int)
  | noPreparator
  | noAdaptor
  -- phases
  | phaseOutOfOrder (phase : PhaseKind) (state : Lifecycle)
  | finishOutOfOrder (state : Lifecycle)
  | noPhaseBlock (phase : PhaseKind)
  -- template files
  | situationNotTable (key : String) (found : Shape)
  | situationAttributeShape (name : String)
  | selfReference (distribution : String)
  | unknownDistribution (name : String)
  | rangeValueShape (distribution : String)
  | unknownSituation (name : String)
  | labelIndexShape (found : Shape)
  | defaultNamesShape (found : Shape)
  | unreadable (path reason : String)
  | malformedSettings
  | malformedTemplate
  -- scripts
  | unknownHandle (name : String)
  | raised (kind : FaultKind) (message : String)

namespace Cause

def kind : Cause → FaultKind
  | .biasNotPositive _ | .weightNotPositive | .emptyRandomRange _ _ | .slotOutside _
  | .emptyBits _ _ | .disjointBits _ _ | .alignmentTooLarge _ | .originNegative _ => .range
  | .unresolvedLabel _ | .unknownDistribution _ => .resolution
  | .notScalar _ _ | .strategyNotNamed _ _ | .notTable _ _ | .notOneLength _ | .notStrings _ _
  | .dataValueShape | .originShape _ | .situationNotTable _ _ | .situationAttributeShape _
  | .rangeValueShape _ | .labelIndexShape _ | .defaultNamesShape _ => .type
  | .noPreparator | .noAdaptor => .notImplemented
  | .malformedSettings | .malformedTemplate => .malformed
  | .raised kind _ => kind
  | _ => .configuration

def message : Cause → String
  | .noRanges => "a distribution needs at least one range"
  | .emptyCollection => "an empty collection cannot be a range value"
  | .biasNotPositive bias => s!"bias must be a positive integer, got {bias}"
  | .weightNotPositive => "distribution weights must be positive"
  | .malformedDistribution => "malformed distribution: all weights are zero"
  | .emptyRandomRange lowest highest => s!"empty random range [{lowest}, {highest}]"
  | .slotOutside index => s!"numeric label {index} is outside 0..=9"
  | .emptyBits low high => s!"bit range [{low}, {high}) is empty"
  | .disjointBits low high =>
      s!"bit range [{low}, {high}) does not overlap the referenced bits"
  | .unresolvedLabel reference =>
      "label '" ++ reference.render ++ "' cannot be resolved in scope"
  | .globalDeclaredTwice name => s!"global label '{name}' is declared more than once"
  | .notScalar what found => what ++ " must be a scalar, got " ++ found.name
  | .strategyNotNamed option found =>
      "`" ++ option.name ++ "` must name a strategy, found " ++ found.name
  | .notTable what found => what ++ " must be a table, found " ++ found.name
  | .misplacedStrategies options kind =>
      Text.commas (options.map StrategyOption.name) ++ " is not allowed in `" ++ kind.name
        ++ "` blocks"
  | .unknownStrategy option name => "unknown " ++ option.name ++ " '" ++ name ++ "'"
  | .blockOutsidePhase kind => "`" ++ kind.name ++ "` used outside of a template phase"
  | .outsideBlock what => "`" ++ what ++ "` used outside of a block"
  | .innerBlockOpen closed innermost =>
      "block " ++ closed.render ++ " closed while " ++ innermost.render ++ " is still open"
  | .blockNotOpen id => "block " ++ id.render ++ " is not open"
  | .blocksLeftOpen count phase =>
      s!"{count} block(s) left open at the end of the " ++ phase.name ++ " phase"
  | .unnamedSection => "a section needs a name"
  | .nestedSection inner outer => s!"section {inner} opened inside section {outer}"
  | .dataConfiguredTwice => "data is already configured"
  | .definedTwice id kind => s!"'{id}' is already defined as a {kind}"
  | .dataNotConfigured => "`data` used before `data_config`"
  | .noDataRegion => "no data region is open"
  | .dataRegionOpen => "a data region is still open"
  | .unknownDefinition id => s!"no data type, space or string named '{id}'"
  | .notOneLength id => s!"'{id}' takes one non-negative length"
  | .notStrings id found => "'" ++ id ++ "' takes strings, found " ++ found.name
  | .dataValueShape => "data values must be scalars or random values"
  | .alignmentTooLarge items => s!"alignment of {items} items is out of range"
  | .originShape found =>
      "origin must be an integer or \x7b delta = <integer> \x7d, found " ++ found.render
  | .originNegative address => s!"origin {address} is negative"
  | .noPreparator => "page table preparator is not defined"
  | .noAdaptor => "page table adaptor is not defined"
  | .phaseOutOfOrder phase state =>
      phase.name ++ " phase cannot start in state " ++ state.tag
  | .finishOutOfOrder state => "template cannot finish in state " ++ state.tag
  | .noPhaseBlock phase => phase.name ++ " phase produced no block"
  | .situationNotTable key found =>
      "attributes of situation '" ++ key ++ "' must be a table, found " ++ found.name
  | .situationAttributeShape name =>
      "situation attribute '" ++ name ++ "' must be a scalar or \x7b dist = \"name\" \x7d"
  | .selfReference distribution => s!"distribution '{distribution}' refers to itself"
  | .unknownDistribution name => s!"no distribution named '{name}'"
  | .rangeValueShape distribution =>
      "range value of '" ++ distribution
        ++ "' must be a scalar, a list or \x7b dist = \"name\" \x7d"
  | .unknownSituation name => s!"unknown situation '{name}'"
  | .labelIndexShape found => "label index must be an integer, found " ++ found.name
  | .defaultNamesShape found =>
      "default situation names must be a string or a list of strings, found " ++ found.name
  | .unreadable path reason => s!"cannot read '{path}': {reason}"
  | .malformedSettings => "malformed settings"
  | .malformedTemplate => "malformed template"
  | .unknownHandle name => s!"no block is known as '{name}'"
  | .raised _ message => message

def notes : Cause → List String
  | .misplacedStrategies _ _ =>
      ["combinators, permutators and compositors apply only to `block`"]
  | .dataConfiguredTwice => ["`data_config` may be called once per template"]
  | _ => []

end Cause

structure Fault where
  cause : Cause
  location : Option Location := none
  notes : List String := []

namespace Fault

def of (cause : Cause) : Fault :=
  { cause, notes := cause.notes }

def kind (fault : Fault) : FaultKind :=
  fault.cause.kind

def message (fault : Fault) : String :=
  fault.cause.message

def locate (fault : Fault) (location : Location) : Fault :=
  { fault with location := some (Location.refine fault.location location) }

def locate? (fault : Fault) : Option Location → Fault
  | some location => fault.locate location
  | none => fault

def withNote (fault : Fault) (note : String) : Fault :=
  { fault with notes := fault.notes ++ [note] }

def render (fault : Fault) : String :=
  fault.kind.name ++ ": " ++ fault.message

/-! ## Report -/

/-- What is shown of a fault: a headline, the stretches of source it points at and
the remarks below them. -/
structure Report where
  headline : String
  marks : List (Nat × Nat × Nat)
  remarks : List String

/-- A span is marked in its file; a line is told in the first remark. -/
def report (fault : Fault) : Report :=
  match fault.location with
  | some (.span file start stop) => ⟨fault.render, [(file, start, stop)], fault.notes⟩
  | some (.caller file line column) =>
      ⟨fault.render, [],
        ("declared at " ++ (Location.caller file line column).render) :: fault.notes⟩
  | none => ⟨fault.render, [], fault.notes⟩

end Fault

/-- Outcome with the location added to a fault. -/
def located {α : Type} (location : Location) (outcome : Except Fault α) : Except Fault α :=
  outcome.mapError (fun fault => fault.locate location)

end TestProgram
