/-
# TestProgram.Script.Run -- running a script

Every step leaves an event in the trace when it has ended, with its outcome and what
can be seen of the session then; the events of a body come before the event of the
step it belongs to.  A step that fails ends the script it stands in, unless it is
attempted.
-/
import TestProgram.Script.Basic
import TestProgram.Session.Calls
import TestProgram.Session.Scopes

namespace TestProgram

set_option autoImplicit false

namespace Script

/-- What a script does: a computation on a session and a notebook. -/
abbrev Run (α : Type) := Act Notebook α

/-- Where the statements of a script are written. -/
def site : Location := .caller "script" 1 1

/-! ## The notebook -/

def notebook : Run Notebook := do pure (← get).memory

def note (event : Event) : Run Unit :=
  modify (fun studio =>
    { studio with memory := { studio.memory with trace := studio.memory.trace ++ [event] } })

def edit (change : Notebook → Notebook) : Run Unit :=
  modify (fun studio => { studio with memory := change studio.memory })

def distributionAt (key : String) : Run Distribution := do
  match (← notebook).distributions.find? key with
  | some distribution => pure distribution
  | none => throw (Fault.of (.unknownDistribution key))

def situationAt (key : String) : Run Situation := do
  match (← notebook).situations.find? key with
  | some situation => pure situation
  | none => throw (Fault.of (.unknownSituation key))

def handleAt (key : String) : Run BlockHandle := do
  match (← notebook).handles.find? key with
  | some handle => pure handle
  | none => throw (Fault.of (.unknownHandle key))

/-- Note how a step ended, and end so. -/
def recorded (verb : String) (body : Run Answer) : Run Unit := do
  let outcome ← Act.attempt body
  note (.step verb outcome (Snapshot.of (← get).session))
  Act.ofExcept (outcome.map (fun _ => ()))

def recordedData (verb : String) (body : Run Unit) : Run Unit := do
  let outcome ← Act.attempt body
  note (.dataStep verb outcome)
  Act.ofExcept outcome

/-- Go on whatever the outcome. -/
def attempted (body : Run Unit) : Run Unit := do
  let _ ← Act.attempt body
  pure ()

/-! ## Values -/

def RangeSource.value : RangeSource → Run RangeValue
  | .scalar value => pure (.scalar value)
  | .collection values => pure (.collection values)
  | .distribution key => do pure (.nested (← distributionAt key))

def RangeSpec.range (spec : RangeSpec) : Run ValueRange := do
  let value ← spec.source.value
  Act.ofExcept (located site (ValueRange.of value spec.bias))

def SituationSource.toAttribute : SituationSource → Run SituationAttribute
  | .scalar value => pure (.scalar value)
  | .distribution key => do pure (.distribution (← distributionAt key))

def ArgumentSpec.argument : ArgumentSpec → Run Argument
  | .value scalar => pure (.value scalar)
  | .random lowest highest => Act.ofExcept (located site (Argument.between lowest highest))
  | .distribution key => do pure (.random (← distributionAt key))
  | .label name => do pure (.label (Session.labelReference name (← get).session))
  | .numeric index forward => do
      let session := (← get).session
      let reference ← Act.ofExcept (Session.numericReference index forward site session)
      pure (.label reference)
  | .address kind level bits => do
      let reference : AddressReference := { kind, level }
      pure (.address (← Act.ofExcept (reference.narrowAll bits)))

/-- An argument of a data statement: ranges are not checked before they are drawn from,
and references are made in the outermost scope. -/
def ArgumentSpec.dataArgument : ArgumentSpec → Run Argument
  | .random lowest highest => pure (.range lowest highest)
  | .label name => pure (.label (.named name BlockId.root))
  | .numeric index forward => do
      let slot ← Act.ofExcept (NumericSlot.ofInt index)
      pure (.label (.numeric slot forward BlockId.root))
  | spec => spec.argument

def LabelSpec.label (spec : LabelSpec) : Except Fault Label := do
  let name ← match spec.name with
    | .inl name => .ok (LabelName.named name)
    | .inr index => (NumericSlot.ofInt index).map LabelName.numeric
  .ok { name, isGlobal := spec.isGlobal, isWeak := spec.isWeak, scope := spec.scope }

def OptionsSpec.options : OptionsSpec → Except Fault BlockOptions
  | .split attributes => BlockOptions.ofAttributes attributes
  | .given options => .ok options

def CallSpec.call (spec : CallSpec) : Run Call := do
  let arguments ← spec.arguments.mapM ArgumentSpec.argument
  let situation ← spec.situation.mapM situationAt
  let labels ← Act.ofExcept (spec.labels.mapM LabelSpec.label)
  pure { name := spec.name, arguments, labels, situation, attributes := spec.attributes,
         location := spec.location }

/-! ## Statements -/

def define (spec : DefinitionSpec) : Run Unit := do
  let outcome ← Act.attempt (Act.data (DataDesk.define spec.definition))
  note (.definition outcome)
  if spec.attempt then pure () else Act.ofExcept outcome

def defineAll (definitions : List DefinitionSpec) (failure : Option (FaultKind × String)) :
    Run Unit := do
  definitions.forM define
  match failure with
  | some (kind, message) => throw (Fault.of (.raised kind message))
  | none => pure ()

def done (body : Run Unit) : Run Answer := do
  body
  pure .done

def onSession (body : Action Unit) : Run Answer :=
  done (Act.session body)

def Statement.perform : Statement → Run Answer
  | .distribution key ranges => do
      let ranges ← ranges.mapM RangeSpec.range
      let distribution ← Act.ofExcept (located site (Distribution.build ranges))
      edit (fun notebook =>
        { notebook with distributions := notebook.distributions.insert key distribution })
      pure (.distribution distribution)
  | .nextValue key => do
      let distribution ← distributionAt key
      let scalar ← Act.session (Action.generation (Generation.sample distribution.sample))
      pure (.scalar scalar)
  | .draw lowest highest => do
      let number ← Act.session
        (Action.generation (Generation.sample (Draw.between lowest highest)))
      pure (.number number)
  | .seed => do pure (.number (← get).session.engine.random.seed)
  | .situation key name attributes providesData => do
      let attributes ← attributes.mapM (fun (name, source) => do
        pure (name, ← source.toAttribute))
      let situation : Situation := { name, attributes, providesData }
      edit (fun notebook =>
        { notebook with situations := notebook.situations.insert key situation })
      pure (.situation (some situation))
  | .defaultSituation names key => do
      let situation ← situationAt key
      onSession (Session.bindDefaults names situation)
  | .defaultFor name => do pure (.situation ((← get).session.defaults.find? name))
  | .instruction name arguments => do
      let arguments ← arguments.mapM ArgumentSpec.argument
      onSession (Session.addCall { name, arguments } site)
  | .call spec => do
      let call ← spec.call
      onSession (Session.addCall call site)
  | .label name => onSession (Session.declareLabel name site)
  | .globalLabel name => onSession (Session.declareGlobalLabel name site)
  | .weakLabel name => onSession (Session.declareWeakLabel name site)
  | .numericLabel index => onSession (Session.declareNumericLabel index site)
  | .text content => onSession (Session.addText content site)
  | .comment content => onSession (Session.addComment content site)
  | .openBlock key kind options => do
      let options ← Act.ofExcept options.options
      let handle ← Act.session (Session.openBlock kind options (some site))
      edit (fun notebook => { notebook with handles := notebook.handles.insert key handle })
      pure (.opened handle.id)
  | .closeBlock key => do
      let handle ← handleAt key
      let block ← Act.session (Session.closeBlock handle)
      pure (.closed block)
  | .configureData config definitions failure =>
      done (Act.configureData config site (defineAll definitions failure))
  | .definition id => do pure (.definition ((← get).session.data.definition? id))
  | .optionGet name => do pure (.option ((← get).session.settings.options.find? name))
  | .optionSet name value =>
      onSession (modify (fun session =>
        { session with
          settings :=
            { session.settings with options := session.settings.options.insert name value } }))
  | .revision => do pure (.revision (← get).session.settings.revision)
  | .isRevision id => do pure (.flag ((← get).session.settings.isRevision id))
  | .settings => do pure (.settings (← get).session.settings)
  | .register option name strategy =>
      onSession (modify (fun session =>
        { session with registry := strategy.register session.registry name option }))
  | .lookup option name => do
      let session := (← get).session
      done (Act.ofExcept (session.registry.find option name))
  | .fail kind message => throw (Fault.of (.raised kind message))

/-! ## Steps -/

mutual

def runDataStep : DataStep → Run Unit
  | .attempt step => attempted (runDataStep step)
  | .origin value => recordedData "org" do
      let origin ← Act.ofExcept (Origin.ofAttribute value)
      Act.data (DataDesk.origin origin)
  | .absoluteOrigin address =>
      recordedData "org_absolute" (Act.data (DataDesk.origin (.absolute address)))
  | .align items => recordedData "align" (Act.data (DataDesk.align items))
  | .label name => recordedData "label" (Act.data (DataDesk.label name false))
  | .globalLabel name => recordedData "global_label" (Act.data (DataDesk.label name true))
  | .text content => recordedData "text" (Act.data (DataDesk.text content))
  | .comment content => recordedData "comment" (Act.data (DataDesk.comment content))
  | .emit id values => recordedData "emit" do
      let values ← values.mapM ArgumentSpec.dataArgument
      Act.data (DataDesk.emit id values)
  | .region region body => recordedData "data" (Act.nestedRegion region (runDataSteps body))
  | .pageTableEntry preparator adaptor entry => do
      let table := PageTable.through preparator adaptor
      note (.note table.render)
      recordedData "page_table_entry" (Act.data (table.emit entry))
  | .fail kind message => recordedData "fail" (throw (Fault.of (.raised kind message)))

def runDataSteps : List DataStep → Run Unit
  | [] => pure ()
  | step :: rest => do
      runDataStep step
      runDataSteps rest

end

mutual

def runStep : Step → Run Unit
  | .attempt step => attempted (runStep step)
  | .statement statement => recorded statement.verb statement.perform
  | .block kind options location body => recorded "block" do
      let options ← Act.ofExcept options.options
      done (Act.scopedBlock kind options (location.getD site) (runAll body))
  | .attributes attributes body => recorded "attributes"
      (done (Act.withAttributes attributes (runAll body)))
  | .flagged flag body => recorded flag.name
      (done (Act.withAttributes flag.attributes (runAll body)))
  | .guarded attributes body => recorded "guard" do
      let depth := (← get).session.attributes.length
      Act.withAttributes attributes (runAll body)
      pure (.depth (depth + 1))
  | .inSection memory location body => recorded "section"
      (done (Act.inSection memory (location.getD site) (runAll body)))
  | .data region body => recorded "data"
      (done (Act.dataRegion region site (runDataSteps body)))
  | .generate pre main post detailed => recorded "generate" do
      let main := match main with
        | some body => runAll body
        | none => Template.noMain
      let generated ← Template.generate { pre := runAll pre, main, post := runAll post }
      pure (.generated generated detailed)

def runAll : List Step → Run Unit
  | [] => pure ()
  | step :: rest => do
      runStep step
      runAll rest

end

end Script

/-- How a script ended, with the session and the notebook it left. -/
def Script.run (script : Script) (settings : Settings) :
    Except Fault Unit × Studio Script.Notebook :=
  Script.runAll script { session := Session.new settings, memory := {} }

end TestProgram
