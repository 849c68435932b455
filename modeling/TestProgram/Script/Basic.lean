/-
# TestProgram.Script.Basic -- templates written as scripts

A script is a list of steps, the statements of a template in the order in which they
are made.  Statements that enclose others hold their bodies as scripts.  Values that
a statement needs and another one made (distributions, situations, open blocks) are
passed on under names, which a `Notebook` keeps together with the trace of the run.

A step under `attempt` may fail without ending the script it stands in.
-/
import TestProgram.Session.Blocks
import TestProgram.Session.Scopes
import TestProgram.Strategy.Extra
import TestProgram.Template

namespace TestProgram

set_option autoImplicit false

namespace Script

/-! ## Values in a script -/

inductive RangeSource
  | scalar (value : Scalar)
  | collection (values : List Scalar)
  | distribution (key : String)

structure RangeSpec where
  source : RangeSource
  bias : Option Int := none

inductive SituationSource
  | scalar (value : Scalar)
  | distribution (key : String)

inductive ArgumentSpec
  | value (scalar : Scalar)
  | random (lowest highest : Int)
  | distribution (key : String)
  | label (name : String)
  | numeric (index : Int) (forward : Bool)
  | address (kind : ReferenceKind) (level : Nat) (bits : List (Nat × Nat))

/-- A label as a call brings it along. -/
structure LabelSpec where
  /-- A name, or the index of a numeric label. -/
  name : String ⊕ Int
  isGlobal : Bool := false
  isWeak : Bool := false
  scope : BlockId

/-- How the options of a block are given: as a table to be split, or one by one. -/
inductive OptionsSpec
  | split (attributes : Attributes)
  | given (options : BlockOptions)

structure CallSpec where
  name : String
  arguments : List ArgumentSpec := []
  attributes : Attributes := []
  situation : Option String := none
  location : Option Location := none
  labels : List LabelSpec := []

structure DefinitionSpec where
  definition : DataDefinition
  attempt : Bool := false

/-! ## Statements -/

/-- Statements without a body. -/
inductive Statement
  | distribution (key : String) (ranges : List RangeSpec)
  | nextValue (key : String)
  | draw (lowest highest : Int)
  | seed
  | situation (key name : String) (attributes : KeyMap SituationSource) (providesData : Bool)
  | defaultSituation (names : List String) (key : String)
  | defaultFor (name : String)
  | instruction (name : String) (arguments : List ArgumentSpec)
  | call (spec : CallSpec)
  | label (name : String)
  | globalLabel (name : String)
  | weakLabel (name : String)
  | numericLabel (index : Int)
  | text (content : String)
  | comment (content : String)
  | openBlock (key : String) (kind : BlockKind) (options : OptionsSpec)
  | closeBlock (key : String)
  | configureData (config : DataConfig) (definitions : List DefinitionSpec)
      (failure : Option (FaultKind × String))
  | definition (id : String)
  | optionGet (name : String)
  | optionSet (name : String) (value : Attribute)
  | revision
  | isRevision (id : String)
  | settings
  | register (option : StrategyOption) (name : String) (strategy : Strategy.Extra)
  | lookup (option : StrategyOption) (name : Option String)
  | fail (kind : FaultKind) (message : String)

/-- Statements of a data region. -/
inductive DataStep
  | attempt (step : DataStep)
  | origin (value : Attribute)
  | absoluteOrigin (address : Nat)
  | align (items : Nat)
  | label (name : String)
  | globalLabel (name : String)
  | text (content : String)
  | comment (content : String)
  | emit (id : String) (values : List ArgumentSpec)
  | region (region : DataRegion) (body : List DataStep)
  | pageTableEntry (preparator adaptor : Option String) (entry : PageTableEntry)
  | fail (kind : FaultKind) (message : String)

inductive Step
  | attempt (step : Step)
  | statement (statement : Statement)
  | block (kind : BlockKind) (options : OptionsSpec) (location : Option Location)
      (body : List Step)
  | attributes (attributes : Attributes) (body : List Step)
  | flagged (flag : Flag) (body : List Step)
  /-- Like `attributes`; the answer is the depth of scopes inside. -/
  | guarded (attributes : Attributes) (body : List Step)
  | inSection (memory : MemorySection) (location : Option Location) (body : List Step)
  | data (region : DataRegion) (body : List DataStep)
  /-- Run a template of these phases on the session at hand. -/
  | generate (pre : List Step) (main : Option (List Step)) (post : List Step) (detailed : Bool)

end Script

abbrev Script := List Script.Step

/-! ## Traces -/

namespace Script

/-- What a statement that has ended well has to tell. -/
inductive Answer
  | done
  | distribution (distribution : Distribution)
  | scalar (value : Scalar)
  | number (number : Int)
  | situation (situation : Option Situation)
  | opened (id : BlockId)
  | closed (block : Block Call)
  | depth (depth : Nat)
  | definition (definition : Option DataDefinition)
  | option (value : Option Attribute)
  | revision (id : Option String)
  | flag (flag : Bool)
  | settings (settings : Settings)
  | generated (generated : Generated) (detailed : Bool)

/-- What can be seen of a session between two statements. -/
structure Snapshot where
  lifecycle : Lifecycle
  blockDepth : Nat
  scope : BlockId
  attributeDepth : Nat
  memory : Option MemorySection
  dataState : DataState
  dataDepth : Nat
  opened : Nat
  closed : Nat
  finished : Nat
deriving DecidableEq, Repr

def Snapshot.of (session : Session) : Snapshot where
  lifecycle := session.lifecycle
  blockDepth := session.blocks.length
  scope := session.scope
  attributeDepth := session.attributes.length
  memory := session.currentSection
  dataState := session.data.state
  dataDepth := session.data.depth
  opened := session.data.opened
  closed := session.data.closed
  finished := session.data.sections.length

inductive Event
  | step (verb : String) (outcome : Except Fault Answer) (snapshot : Snapshot)
  | dataStep (verb : String) (outcome : Except Fault Unit)
  | definition (outcome : Except Fault Unit)
  | note (content : String)

structure Notebook where
  distributions : KeyMap Distribution := []
  situations : KeyMap Situation := []
  handles : KeyMap BlockHandle := []
  trace : List Event := []

/-! ## Names of statements -/

def Statement.verb : Statement → String
  | .distribution _ _ => "dist"
  | .nextValue _ => "next_value"
  | .draw _ _ => "draw"
  | .seed => "seed"
  | .situation _ _ _ _ => "situation"
  | .defaultSituation _ _ => "default_situation"
  | .defaultFor _ => "default_for"
  | .instruction _ _ => "instruction"
  | .call _ => "call"
  | .label _ => "label"
  | .globalLabel _ => "global_label"
  | .weakLabel _ => "weak"
  | .numericLabel _ => "numeric_label"
  | .text _ => "text"
  | .comment _ => "comment"
  | .openBlock _ _ _ => "open"
  | .closeBlock _ => "close"
  | .configureData _ _ _ => "data_config"
  | .definition _ => "definition"
  | .optionGet _ => "option_get"
  | .optionSet _ _ => "option_set"
  | .revision => "rev_id"
  | .isRevision _ => "is_rev"
  | .settings => "settings"
  | .register _ _ _ => "register"
  | .lookup _ _ => "lookup"
  | .fail _ _ => "fail"

end Script
end TestProgram
