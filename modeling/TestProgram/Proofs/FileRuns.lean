/-
# TestProgram.Proofs.FileRuns -- how a template file runs

The items of a template file act on the session alone, and there they make blocks and calls at
their own spans.  So they keep all that is kept where nothing is written in lines of a program
(`Studio.Robust`): that nothing was, and whatever is said of the memory of the file.  The
configuration of data and the default situations keep it as well.

A run begins in the studio `begun`, where the file is prepared and the items of the first phase are
run.  What comes after that depends on the memory only as far as the items do (`generate_run`).
-/
import TestProgram.Proofs.Unlined
import TestProgram.TemplateFile.Run

namespace TestProgram.TemplateFile

set_option autoImplicit false

open Act TestProgram.Computation

variable {I : Studio Memory → Prop}

/-! ## Values -/

theorem keeps_distributionNamed (name : String) : Keeps I (distributionNamed name) := by
  refine keeps_get.bind (fun _ => ?_)
  split
  · exact keeps_pure _
  · exact keeps_throw _

theorem keeps_situationNamed (name : String) : Keeps I (situationNamed name) := by
  refine keeps_get.bind (fun _ => ?_)
  split
  · exact keeps_pure _
  · exact keeps_throw _

theorem keeps_argument (spec : FileArgument) : Keeps I (argument spec) := by
  cases spec with
  | value scalar => exact keeps_pure _
  | random lowest highest => exact keeps_ofExcept _
  | distribution name => exact (keeps_distributionNamed name).bind (fun _ => keeps_pure _)
  | label name => exact keeps_get.bind (fun _ => keeps_pure _)
  | numeric index forward =>
      refine (keeps_ofExcept _).bind (fun index => keeps_get.bind (fun _ => ?_))
      exact (keeps_ofExcept _).bind (fun _ => keeps_pure _)
  | address kind level bits => exact (keeps_ofExcept _).bind (fun _ => keeps_pure _)

theorem keeps_dataArgument (spec : FileArgument) : Keeps I (dataArgument spec) := by
  cases spec with
  | value scalar => exact keeps_pure _
  | random lowest highest => exact keeps_ofExcept _
  | distribution name => exact (keeps_distributionNamed name).bind (fun _ => keeps_pure _)
  | _ => exact keeps_throw _

/-! ## Items -/

mutual

theorem keeps_runDataItem (robust : Studio.Robust I) (number : Nat) :
    ∀ item : DataItem, Keeps I (runDataItem number item)
  | .origin _ => (keeps_ofExcept _).bind (fun _ => keeps_data robust _)
  | .align _ => keeps_data robust _
  | .label _ => keeps_data robust _
  | .globalLabel _ => keeps_data robust _
  | .text _ => keeps_data robust _
  | .comment _ => keeps_data robust _
  | .emit _ values =>
      (Keeps.mapM keeps_dataArgument values).bind (fun _ => keeps_data robust _)
  | .region region items =>
      keeps_nestedRegion robust (keeps_runDataItems robust number items) region

theorem keeps_runDataItems (robust : Studio.Robust I) (number : Nat) :
    ∀ items : DataItems, Keeps I (runDataItems number items)
  | [] => keeps_pure ()
  | (span, item) :: rest =>
      (keeps_locating (keeps_runDataItem robust number item) (spanIn number span)).bind
        (fun _ => keeps_runDataItems robust number rest)

end

theorem keeps_call (robust : Studio.Robust I) (number : Nat) (span : Toml.Span) (call : FileCall) :
    Keeps I (runItem number (spanIn number span) (.call call)) := by
  rw [runItem]
  simp only [FileCall.call, bind_assoc, pure_bind]
  refine (Keeps.mapM keeps_argument call.arguments).bind (fun arguments => ?_)
  refine (keeps_ofExcept _).bind (fun attributes => ?_)
  refine (Keeps.optionMapM keeps_situationNamed call.situation).bind (fun situation => ?_)
  exact robust.session (Session.keeps_addCall rfl (unlined_span _ _ _) site)

mutual

theorem keeps_runItem (robust : Studio.Robust I) (number : Nat) (span : Toml.Span) :
    ∀ item : Item, Keeps I (runItem number (spanIn number span) item)
  | .block kind _ items => (keeps_ofExcept _).bind (fun _ =>
      (keeps_ofExcept _).bind (fun options =>
        keeps_scopedBlock robust (keeps_runItems robust number items) kind options
          (unlined_span _ _ _)))
  | .call call => keeps_call robust number span call
  | .label name => robust.session (Session.keeps_declare (.label name) site)
  | .globalLabel name => robust.session (Session.keeps_declare (.globalLabel name) site)
  | .weakLabel name => robust.session (Session.keeps_declare (.weakLabel name) site)
  | .numericLabel _ => (keeps_ofExcept _).bind (fun index =>
      robust.session (Session.keeps_declare (.numericLabel index) site))
  | .text content => robust.session (Session.keeps_write (.text content) site)
  | .comment content => robust.session (Session.keeps_write (.comment content) site)
  | .flagged flag items =>
      keeps_withAttributes robust (keeps_runItems robust number items) flag.attributes
  | .attributes _ items => (keeps_ofExcept _).bind (fun attributes =>
      keeps_withAttributes robust (keeps_runItems robust number items) attributes)
  | .data region items =>
      keeps_dataRegion robust (keeps_runDataItems robust number items) region site
  | .inSection memory items =>
      keeps_inSection robust (keeps_runItems robust number items) memory (spanIn number span)

theorem keeps_runItems (robust : Studio.Robust I) (number : Nat) :
    ∀ items : Items, Keeps I (runItems number items)
  | [] => keeps_pure ()
  | (span, item) :: rest =>
      (keeps_locating (keeps_runItem robust number span item) (spanIn number span)).bind
        (fun _ => keeps_runItems robust number rest)

end

/-! ## Data and default situations -/

theorem keeps_prepareData (robust : Studio.Robust I) (data : FileData) :
    Keeps I (prepareData data) :=
  keeps_configureData robust (Keeps.forM (fun _ => keeps_data robust _) data.definitions)
    data.config site

theorem keeps_prepareDefault (robust : Studio.Robust I) (spec : FileDefault) :
    Keeps I (prepareDefault spec) :=
  (keeps_ofExcept _).bind (fun names => (keeps_situationNamed _).bind (fun situation =>
    robust.session (Session.keeps_bindDefaults names situation)))

/-! ## The run -/

/-- The studio that a file is prepared in: the first phase has begun. -/
def begun (settings : Settings) (memory : Memory) : Studio Memory where
  session :=
    { Session.new settings with
      engine :=
        { Engine.ofSeed settings.seed with
          journal := [.generating settings.seed, .phaseStarted .pre] }
      lifecycle := .preRunning
      blocks := [{ id := BlockId.root, kind := .sequence }] }
  memory := memory

/-- What is left to be done when the body of the first phase has ended. -/
def afterwards (file : TemplateFile) (number : Nat) (outcome : Except Fault Unit) :
    Run Generated := do
  let pre ← session (Session.endPhase .pre outcome)
  let main ← runPhase .main (runItems number file.main)
  let post ← runPhase .post (runItems number file.post)
  let program ← session (Session.register pre main post)
  session (Session.link program)

theorem generate_run (file : TemplateFile) (number : Nat) (settings : Settings) (memory : Memory) :
    file.generate number settings memory =
      (attempt (do file.prepare; runItems number file.pre) >>= afterwards file number)
        (begun settings memory) := by
  have steps : (file.template number).generate = (do
      session (do Action.remark (.generating (← get).settings.seed))
      startPhase .pre
      let outcome ← attempt (do file.prepare; runItems number file.pre)
      afterwards file number outcome : Run Generated) := by
    simp only [Template.generate, Template.program, template, runPhase_eq, afterwards, bind_assoc]
  rw [generate, steps]
  rfl

end TestProgram.TemplateFile
