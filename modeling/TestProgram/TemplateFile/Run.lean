/-
# TestProgram.TemplateFile.Run -- template files as templates

A template file is a template whose statements are its items.  Before the first phase
its distributions and situations are built, its data is configured and its default
situations are bound; what was built is remembered and used by the items.  A fault in
an item gets the stretch of the file that the item was written in.
-/
import TestProgram.Session.Calls
import TestProgram.TemplateFile.Distributions
import TestProgram.Template

namespace TestProgram

set_option autoImplicit false

namespace TemplateFile

open Toml (Span)

/-- What a template file has built. -/
structure Memory where
  distributions : KeyMap Distribution := []
  situations : KeyMap Situation := []

abbrev Run (α : Type) := Act Memory α

/-- Where the statements that no item makes are written. -/
def site : Location := .caller "template" 1 1

def building {α : Type} (body : Building α) : Run α := fun studio =>
  let (outcome, distributions) := body studio.memory.distributions
  (outcome, { studio with memory := { studio.memory with distributions } })

def distributionNamed (name : String) : Run Distribution := do
  match (← get).memory.distributions.find? name with
  | some distribution => pure distribution
  | none => throw (Fault.of (.unknownDistribution name))

def situationNamed (name : String) : Run Situation := do
  match (← get).memory.situations.find? name with
  | some situation => pure situation
  | none => throw (Fault.of (.unknownSituation name))

/-! ## Preparation -/

def situationAttribute (name : String) (value : Attribute) : Run SituationAttribute :=
  match value with
  | .map _ =>
      match value.distributionName? with
      | some distribution => do pure (.distribution (← distributionNamed distribution))
      | none => throw (Fault.of (.situationAttributeShape name))
  | _ => do pure (.scalar (← Act.ofExcept (value.toScalar "situation attribute")))

def prepareSituation (key : String) (spec : FileSituation) : Run Unit := do
  match spec.attributes.map? with
  | none => throw (Fault.of (.situationNotTable key spec.attributes.shape))
  | some entries =>
      let attributes ← entries.mapM (fun (name, value) => do
        pure (name, ← situationAttribute name value))
      let situation : Situation :=
        { name := spec.name.getD key, attributes, providesData := spec.providesData }
      modify (fun studio =>
        { studio with
          memory :=
            { studio.memory with situations := studio.memory.situations.insert key situation } })

def prepareData (data : FileData) : Run Unit :=
  Act.configureData data.config site
    (data.definitions.forM (fun definition => Act.data (DataDesk.define definition)))

def prepareDefault (spec : FileDefault) : Run Unit := do
  let names ← Act.ofExcept spec.names.toNames
  let situation ← situationNamed spec.situation
  Act.session (Session.bindDefaults names situation)

def prepare (file : TemplateFile) : Run Unit := do
  building (buildAll file.distributions)
  file.situations.forM (fun (key, spec) => prepareSituation key spec)
  match file.data with
  | some data => prepareData data
  | none => pure ()
  file.defaults.forM prepareDefault

/-! ## Arguments -/

def argument : FileArgument → Run Argument
  | .value scalar => pure (.value scalar)
  | .random lowest highest => Act.ofExcept (located site (Argument.between lowest highest))
  | .distribution name => do pure (.random (← distributionNamed name))
  | .label name => do pure (.label (Session.labelReference name (← get).session))
  | .numeric index forward => do
      let index ← Act.ofExcept index.toLabelIndex
      let session := (← get).session
      let reference ← Act.ofExcept (Session.numericReference index forward site session)
      pure (.label reference)
  | .address kind level bits => do
      let reference : AddressReference := { kind, level }
      pure (.address (← Act.ofExcept (reference.narrowAll bits)))

def dataArgument : FileArgument → Run Argument
  | .value scalar => pure (.value scalar)
  | .random lowest highest => Act.ofExcept (Argument.between lowest highest)
  | .distribution name => do pure (.random (← distributionNamed name))
  | _ => throw (Fault.of .dataValueShape)

def FileCall.call (call : FileCall) (location : Location) : Run Call := do
  let arguments ← call.arguments.mapM argument
  let attributes ← Act.ofExcept (call.attributes.toTable "call attributes")
  let situation ← call.situation.mapM situationNamed
  pure { name := call.name, arguments, attributes, situation, location := some location }

/-! ## Items -/

def spanIn (file : Nat) (span : Span) : Location :=
  .span file span.start span.stop

mutual

def runDataItem (file : Nat) : DataItem → Run Unit
  | .origin value => do
      let origin ← Act.ofExcept (Origin.ofAttribute value)
      Act.data (DataDesk.origin origin)
  | .align items => Act.data (DataDesk.align items)
  | .label name => Act.data (DataDesk.label name false)
  | .globalLabel name => Act.data (DataDesk.label name true)
  | .text content => Act.data (DataDesk.text content)
  | .comment content => Act.data (DataDesk.comment content)
  | .emit id values => do
      let values ← values.mapM dataArgument
      Act.data (DataDesk.emit id values)
  | .region region items => Act.nestedRegion region (runDataItems file items)

def runDataItems (file : Nat) : List (Span × DataItem) → Run Unit
  | [] => pure ()
  | (span, item) :: rest => do
      Act.locating (spanIn file span) (runDataItem file item)
      runDataItems file rest

end

mutual

/-- Make the statement of an item that was written at a location. -/
def runItem (file : Nat) (location : Location) : Item → Run Unit
  | .block kind attributes items => do
      let attributes ← Act.ofExcept (attributes.toTable "block attributes")
      let options ← Act.ofExcept (BlockOptions.ofAttributes attributes)
      Act.scopedBlock kind options location (runItems file items)
  | .call call => do
      let call ← call.call location
      Act.session (Session.addCall call site)
  | .label name => Act.session (Session.declareLabel name site)
  | .globalLabel name => Act.session (Session.declareGlobalLabel name site)
  | .weakLabel name => Act.session (Session.declareWeakLabel name site)
  | .numericLabel index => do
      let index ← Act.ofExcept index.toLabelIndex
      Act.session (Session.declareNumericLabel index site)
  | .text content => Act.session (Session.addText content site)
  | .comment content => Act.session (Session.addComment content site)
  | .flagged flag items => Act.withAttributes flag.attributes (runItems file items)
  | .attributes attributes items => do
      let attributes ← Act.ofExcept (attributes.toTable "attributes")
      Act.withAttributes attributes (runItems file items)
  | .data region items => Act.dataRegion region site (runDataItems file items)
  | .inSection memory items => Act.inSection memory location (runItems file items)

def runItems (file : Nat) : List (Span × Item) → Run Unit
  | [] => pure ()
  | (span, item) :: rest => do
      Act.locating (spanIn file span) (runItem file (spanIn file span) item)
      runItems file rest

end

end TemplateFile

namespace TemplateFile

/-- The template of a file that is known under a number. -/
def template (file : TemplateFile) (number : Nat) : Template Memory where
  pre := do
    prepare file
    runItems number file.pre
  main := runItems number file.main
  post := runItems number file.post

/-- The settings that the file brings along. -/
def ownSettings (file : TemplateFile) : Settings :=
  file.settings.getD {}

/-- Run the file on a new session, with what earlier runs have built. -/
def generate (file : TemplateFile) (number : Nat) (settings : Settings) (memory : Memory) :
    Except Fault Generated × Studio Memory :=
  (file.template number).generate { session := Session.new settings, memory }

/-- Run the file so many times, each time on a new session; the journals of the runs
follow each other. -/
def generateTimes (file : TemplateFile) (number : Nat) (settings : Settings) :
    Nat → Memory → Except Fault (List Generated) × Journal
  | 0, _ => (.ok [], [])
  | times + 1, memory =>
      let (outcome, studio) := file.generate number settings memory
      let journal := studio.session.engine.journal
      match outcome with
      | .error fault => (.error fault, journal)
      | .ok generated =>
          let (others, later) := generateTimes file number settings times studio.memory
          (others.map (generated :: ·), journal ++ later)

end TemplateFile
end TestProgram
