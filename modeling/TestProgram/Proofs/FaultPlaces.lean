/-
# TestProgram.Proofs.FaultPlaces -- the place that a fault of a phase points at

The items of a phase stand in each other, and data items stand in data regions.  `Reaches` says
which of them a run comes to, and in which state: one that stands in another is reached when the
statement around it has been opened, and one that stands behind another when that one has
succeeded.  A fault that ends the run goes out through every item around the one that failed, and
each of them attaches its own location.

`fault_points_at_innermost` says that this changes nothing: the location of the fault is the span
of the innermost item that failed.  What every item has to say for this is `Encloses`: a fault of
its own has met no span but that of the item, a fault of the items in it that has a span goes out
as it is, and closing comes to nothing new.  For a block the last rests on the stack of open
blocks being what it was (`Act.Sited`), for a data region on its depth (`Act.Restores`).
-/
import TestProgram.Proofs.RaisedFaults
import TestProgram.Proofs.PlannedScripts
import TestProgram.Proofs.Scopes

namespace TestProgram

set_option autoImplicit false

open TestProgram.Computation

/-! ## Where the open blocks were written -/

namespace Session

/-- The locations of the open blocks, the innermost first. -/
def sites (session : Session) : List (Option Location) :=
  session.blocks.map OpenBlock.location

theorem discardAbove_sites (depth : Nat) (session : Session) :
    (session.discardAbove depth).sites = session.sites.drop (session.sites.length - depth) := by
  rw [sites, discardAbove, List.map_drop, sites, List.length_map]

theorem openBlock_sites {kind : BlockKind} {options : BlockOptions} {location : Option Location}
    {session after : Session} {handle : BlockHandle}
    (opened : openBlock kind options location session = (.ok handle, after)) :
    after.sites = location :: session.sites ∧ handle.depth = session.sites.length := by
  unfold openBlock at opened
  cases stack : session.blocks with
  | cons parent outer =>
      simp only [stack] at opened
      cases opened
      simp [sites, stack]
  | nil =>
      simp only [stack] at opened
      split at opened
      · cases opened
        simp [sites, stack]
      · cases opened

theorem openBlock_refused {kind : BlockKind} {options : BlockOptions}
    {location : Option Location} {session after : Session} {fault : Fault}
    (refused : openBlock kind options location session = (.error fault, after)) :
    after = session := by
  unfold openBlock at refused
  split at refused
  · cases refused
  · split at refused
    · cases refused
    · cases refused
      rfl

/-- Closing takes one block off the stack, or none. -/
theorem closeBlock_sites (handle : BlockHandle) (session : Session) :
    (closeBlock handle session).2.sites = session.sites ∨
      (closeBlock handle session).2.sites = session.sites.tail := by
  rcases run : closeBlock handle session with ⟨outcome, after⟩
  cases closeBlock_closing run with
  | refused fault => exact .inl rfl
  | dropped fault stack height =>
      right
      rw [sites, sites, stack]
      rfl
  | @sealed top outer after stack height fits registry hung =>
      right
      rw [sites, sites, hung, stack]
      cases outer <;> rfl

/-- A block that does not close although it is the innermost one was refused where it was
written, or for a reason that has no place. -/
theorem closeBlock_here {handle : BlockHandle} {session after : Session} {location : Location}
    {others : List (Option Location)} {fault : Fault}
    (innermost : session.sites = some location :: others)
    (refused : closeBlock handle session = (.error fault, after)) : fault.Here location := by
  cases stack : session.blocks with
  | nil =>
      rw [sites, stack] at innermost
      cases innermost
  | cons top outer =>
      have written : top.location = some location := by
        rw [sites, stack] at innermost
        exact (List.cons.inj innermost).1
      simp only [closeBlock, stack] at refused
      split at refused
      · split at refused
        · rename_i cause failed
          cases refused
          have flushed_location : (top.flushed session.currentSection).location =
              some location := by
            unfold OpenBlock.flushed
            split <;> exact written
          obtain ⟨cause, checks, rfl⟩ := Except.mapError_error_iff.mp failed
          rw [flushed_location]
          exact (untyped_checks _ _ _ cause checks).1.here.locate
        · cases refused
      · cases refused
        exact (Fault.unplaced_of _).here

/-- A scoped block leaves the stack as high as it was before it was opened. -/
theorem leaveBlock_sites {handle : BlockHandle} {session : Session} {location : Location}
    {innermost : Option Location} {others : List (Option Location)} {body : Except Fault Unit}
    (inside : session.sites = innermost :: others) (depth : handle.depth = others.length) :
    (leaveBlock handle location body session).2.sites = others := by
  cases body with
  | error fault =>
      rw [leaveBlock, discardAbove_sites, inside, depth, List.length_cons,
        Nat.add_sub_cancel_left]
      rfl
  | ok _ =>
      show ((closeBlock handle session).2.discardAbove handle.depth).sites = others
      rw [discardAbove_sites, depth]
      rcases closeBlock_sites handle session with same | popped
      · rw [same, inside, List.length_cons, Nat.add_sub_cancel_left]
        rfl
      · rw [popped, inside, List.tail_cons, Nat.sub_self]
        rfl

end Session

namespace Act

variable {ε α β : Type}

/-- The open blocks are the ones that were open before, by the places they were written at. -/
def Sited (act : Act ε α) : Prop :=
  ∀ studio, (act studio).2.session.sites = studio.session.sites

theorem Aloof.sited {act : Act ε α} (aloof : Aloof act) : Sited act :=
  fun studio => congrArg Session.sites (aloof studio)

theorem sited_aside {action : Action α} (aside : action.Aside) :
    Sited (session action : Act ε α) :=
  fun studio => congrArg (List.map OpenBlock.location) (aside studio.session)

theorem Sited.bind {first : Act ε α} {next : α → Act ε β} (here : Sited first)
    (there : ∀ value, Sited (next value)) : Sited (first >>= next) := by
  intro studio
  have same := here studio
  rw [bind_run]
  rcases run : first studio with ⟨fault | value, after⟩
  · rw [run] at same
    exact same
  · rw [run] at same
    exact (there value after).trans same

theorem Sited.attempt {body : Act ε α} (sited : Sited body) : Sited (attempt body) :=
  sited

theorem Sited.locating {body : Act ε α} (sited : Sited body) (location : Location) :
    Sited (locating location body) :=
  sited

/-- What changes the innermost block only leaves it where it was written. -/
theorem sited_inBlock (what : String) {change : OpenBlock → OpenBlock}
    (still : ∀ block, (change block).location = block.location) (session : Session) :
    (Session.inBlock what change session).2.sites = session.sites := by
  cases stack : session.blocks with
  | nil => rw [Session.inBlock, stack]
  | cons top outer =>
      rw [Session.inBlock, stack]
      simp only [Session.sites, stack, List.map_cons, still]

theorem sited_declare (declaration : Declaration) (location : Location) :
    Sited (session (declaration.perform location) : Act ε Unit) := by
  intro studio
  show (declaration.perform location studio.session).2.sites = _
  rcases Session.declaration_adds studio.session declaration location with
    same | ⟨label, what, adds⟩
  · rw [same]
  · rw [adds, Session.addLabel]
    exact sited_inBlock what (by exact fun _ => rfl) studio.session

theorem sited_addCall (call : Call) (location : Location) :
    Sited (session (Session.addCall call location) : Act ε Unit) := by
  intro studio
  show (Session.inBlock "instruction" _ studio.session).2.sites = _
  exact sited_inBlock "instruction" (by exact fun _ => rfl) studio.session

theorem sited_addText (content : String) (location : Location) :
    Sited (session (Session.addText content location) : Act ε Unit) := by
  intro studio
  show (Session.inBlock "text" _ studio.session).2.sites = _
  exact sited_inBlock "text" (by exact fun _ => rfl) studio.session

theorem sited_addComment (content : String) (location : Location) :
    Sited (session (Session.addComment content location) : Act ε Unit) := by
  intro studio
  show (Session.inBlock "comment" _ studio.session).2.sites = _
  exact sited_inBlock "comment" (by exact fun _ => rfl) studio.session

theorem sited_data (action : DataAction α) : Sited (data action : Act ε α) :=
  sited_aside (fun _ => rfl)

section Enclosed

variable {body : Act ε Unit} (sited : Sited body)

include sited

/-- A block that was opened is gone at the end of its body, whatever has come of it. -/
theorem Sited.scopedBlock (kind : BlockKind) (options : BlockOptions) (location : Location) :
    Sited (scopedBlock kind options location body) := by
  intro studio
  rw [Act.scopedBlock, bind_run]
  rcases run : Session.openBlock kind options (some location) studio.session with
    ⟨fault | handle, opened⟩
  · simp only [session, run]
    rw [Session.openBlock_refused run]
  · obtain ⟨innermost, depth⟩ := Session.openBlock_sites run
    simp only [session, run]
    have ended := sited { studio with session := opened }
    rw [innermost] at ended
    show (Session.leaveBlock handle location _ _).2.sites = _
    exact Session.leaveBlock_sites ended depth

theorem Sited.withAttributes (attributes : Attributes) :
    Sited (withAttributes attributes body) :=
  (sited_aside (fun _ => rfl)).bind (fun _ => sited.attempt.bind (fun outcome =>
    (sited_aside (fun _ => rfl)).bind (fun _ => (aloof_ofExcept outcome).sited)))

theorem Sited.inSection (memory : MemorySection) (location : Location) :
    Sited (inSection memory location body) :=
  (sited_aside (Action.aside_enterSection memory location)).bind (fun _ =>
    sited.attempt.bind (fun _ =>
      (sited_aside (fun _ => rfl)).bind (fun _ => (aloof_ofExcept _).sited)))

theorem Sited.dataRegion (region : DataRegion) (location : Location) :
    Sited (dataRegion region location body) :=
  (sited_aside (fun _ => rfl)).bind (fun _ => ((sited_data _).locating location).bind (fun _ =>
    sited.attempt.bind (fun _ => (sited_data _).bind (fun _ => (aloof_ofExcept _).sited))))

theorem Sited.nestedRegion (region : DataRegion) : Sited (nestedRegion region body) :=
  (sited_data _).bind (fun _ =>
    sited.attempt.bind (fun _ => (sited_data _).bind (fun _ => (aloof_ofExcept _).sited)))

end Enclosed

end Act

namespace TemplateFile

open Act

mutual

theorem runDataItem_sited (number : Nat) : ∀ item : DataItem, Sited (runDataItem number item)
  | .origin _ => (aloof_ofExcept _).sited.bind (fun _ => sited_data _)
  | .align _ => sited_data _
  | .label _ => sited_data _
  | .globalLabel _ => sited_data _
  | .text _ => sited_data _
  | .comment _ => sited_data _
  | .emit _ values =>
      (Aloof.mapM dataArgument_aloof values).sited.bind (fun _ => sited_data _)
  | .region region items => (runDataItems_sited number items).nestedRegion region

theorem runDataItems_sited (number : Nat) : ∀ items : DataItems,
    Sited (runDataItems number items)
  | [] => (aloof_pure ()).sited
  | (span, item) :: rest =>
      ((runDataItem_sited number item).locating (spanIn number span)).bind
        (fun _ => runDataItems_sited number rest)

end

mutual

theorem runItem_sited (number : Nat) (location : Location) : ∀ item : Item,
    Sited (runItem number location item)
  | .block kind _ items => (aloof_ofExcept _).sited.bind (fun _ =>
      (aloof_ofExcept _).sited.bind (fun options =>
        (runItems_sited number items).scopedBlock kind options location))
  | .call call => (call_aloof call location).sited.bind (fun call => sited_addCall call site)
  | .label name => sited_declare (.label name) site
  | .globalLabel name => sited_declare (.globalLabel name) site
  | .weakLabel name => sited_declare (.weakLabel name) site
  | .numericLabel _ => (aloof_ofExcept _).sited.bind (fun index =>
      sited_declare (.numericLabel index) site)
  | .text content => sited_addText content site
  | .comment content => sited_addComment content site
  | .flagged flag items => (runItems_sited number items).withAttributes flag.attributes
  | .attributes _ items => (aloof_ofExcept _).sited.bind (fun attributes =>
      (runItems_sited number items).withAttributes attributes)
  | .data region items => (runDataItems_sited number items).dataRegion region site
  | .inSection memory items => (runItems_sited number items).inSection memory location

theorem runItems_sited (number : Nat) : ∀ items : Items, Sited (runItems number items)
  | [] => (aloof_pure ()).sited
  | (span, item) :: rest =>
      ((runItem_sited number (spanIn number span) item).locating (spanIn number span)).bind
        (fun _ => runItems_sited number rest)

end

end TemplateFile

/-! ## Statements around others -/

namespace Fault

/-- The fault is located in a file. -/
def Spanned (fault : Fault) : Prop :=
  ∃ file start stop, fault.location = some (.span file start stop)

theorem Spanned.locate {fault : Fault} (spanned : fault.Spanned) (location : Location) :
    fault.locate location = fault := by
  obtain ⟨file, start, stop, located⟩ := spanned
  obtain ⟨cause, _, notes⟩ := fault
  cases located
  rfl

end Fault

namespace Act

variable {ε α β : Type} {location : Location} {body : Act ε Unit}

/-- How a statement ends whose body has ended: a fault in a file goes out as it is, and a fault of
its own is one that was met here. -/
def Closes (location : Location) (ending : Except Fault Unit) : Except Fault Unit → Prop
  | .error fault => fault.Spanned → ending = .error fault
  | .ok () => ∀ own, ending = .error own → own.Here location

theorem closes_same (outcome : Except Fault Unit) : Closes location outcome outcome := by
  cases outcome with
  | error fault => exact fun _ => rfl
  | ok _ =>
      intro own failed
      cases failed

theorem closes_located (around : Location) (outcome : Except Fault Unit) :
    Closes location (located around outcome) outcome := by
  cases outcome with
  | error fault => exact fun spanned => congrArg Except.error (spanned.locate around)
  | ok _ =>
      intro own failed
      cases failed

/-- The statement `whole` opens with `opening` and then runs `body`.  Whatever it comes to by
itself has met no span but its own, and a fault of the body that is located in a file goes out as
it is. -/
structure Encloses (location : Location) (opening body whole : Act ε Unit) : Prop where
  refuses : ∀ {studio after : Studio ε} {fault : Fault}, opening studio = (.error fault, after) →
    ∃ own last, whole studio = (.error own, last) ∧ own.Here location
  closes : ∀ {studio inner after : Studio ε} {outcome : Except Fault Unit},
    opening studio = (.ok (), inner) → body inner = (outcome, after) →
    Closes location (whole studio).1 outcome

/-- A statement with nothing inside. -/
theorem encloses_nothing {whole : Act ε Unit} (raises : Raises (Fault.Here location) whole) :
    Encloses location whole (pure ()) whole where
  refuses failed := ⟨_, _, failed, raises _ _ (congrArg Prod.fst failed)⟩
  closes opened ran := by
    cases ran
    rw [opened]
    exact closes_same _

/-- What a statement looks at before it opens. -/
theorem Encloses.after {first : Act ε α} {opening whole : α → Act ε Unit}
    (raises : Raises (Fault.Here location) first)
    (each : ∀ value, Encloses location (opening value) body (whole value)) :
    Encloses location (first >>= opening) body (first >>= whole) where
  refuses := by
    intro studio after fault failed
    rw [bind_run] at failed ⊢
    rcases run : first studio with ⟨cause | value, middle⟩
    · exact ⟨cause, middle, rfl, raises studio cause (congrArg Prod.fst run)⟩
    · rw [run] at failed
      exact (each value).refuses failed
  closes := by
    intro studio inner after outcome opened ran
    obtain ⟨value, middle, here, opened⟩ := bind_ok_iff.mp opened
    rw [bind_run, here]
    exact (each value).closes opened ran

/-- A statement that opens something, runs a body whatever comes of it, and closes what it has
opened. -/
theorem encloses_around {opening : Act ε β} {closing : β → Except Fault Unit → Act ε Unit}
    (raises : Raises (Fault.Here location) opening)
    (closes : ∀ {studio inner after : Studio ε} {mark : β} {outcome : Except Fault Unit},
      opening studio = (.ok mark, inner) → body inner = (outcome, after) →
      Closes location (closing mark outcome after).1 outcome) :
    Encloses location (do let _ ← opening; pure ()) body (do
      let mark ← opening
      let outcome ← attempt body
      closing mark outcome) where
  refuses := by
    intro studio after fault failed
    rcases bind_error_iff.mp failed with here | ⟨_, _, _, later⟩
    · exact ⟨fault, after, bind_error_iff.mpr (.inl here), raises _ _ (congrArg Prod.fst here)⟩
    · cases later
  closes := by
    intro studio inner after outcome opened ran
    obtain ⟨mark, middle, here, later⟩ := bind_ok_iff.mp opened
    cases later
    have ended := closes here ran
    have attempted : attempt body inner = (.ok outcome, after) := by
      rw [attempt, ran]
    rw [bind_run, here]
    simp only
    rwa [bind_run, attempted]

theorem encloses_withAttributes (attributes : Attributes) :
    Encloses location (do let _ ← session (Session.enterAttributes attributes); pure ()) body
      (withAttributes attributes body) := by
  refine encloses_around ?_ (fun {_ _ _ _ outcome} _ _ => ?_)
  · intro studio fault failed
    cases failed
  · exact closes_same outcome

theorem encloses_inSection (memory : MemorySection) :
    Encloses location (do let _ ← session (Session.enterSection memory location); pure ()) body
      (inSection memory location body) :=
  encloses_around (raises_session (Action.raises_enterSection memory location))
    (fun {_ _ _ _ outcome} _ _ => closes_located location outcome)

/-- A region that has been entered can be left, since its body keeps the depth of regions. -/
theorem encloses_region {plain : Prop} (restores : body.Restores plain) {opening : Act ε Unit}
    (raises : Raises (Fault.Here location) opening) (deeper : Deeper opening)
    {ending : Except Fault Unit → Except Fault Unit}
    (ends : ∀ outcome, Closes location (ending outcome) outcome) :
    Encloses location opening body (do
      opening
      let outcome ← attempt body
      data DataDesk.exit
      ofExcept (ending outcome)) := by
  have around : Encloses location (do let _ ← opening; pure ()) body (do
      let _ ← opening
      let outcome ← attempt body
      data DataDesk.exit
      ofExcept (ending outcome)) := by
    refine encloses_around raises (fun {studio inner after _ outcome} opened ran => ?_)
    rcases deeper studio with ⟨fault, refused⟩ | ⟨desk, entered, deep⟩
    · cases opened.symm.trans refused
    · cases opened.symm.trans entered
      have ended := restores (studio.atDesk desk)
      rw [ran] at ended
      have inside : after.desk.store.depth = studio.session.data.depth + 1 :=
        ended.depth.trans deep
      obtain ⟨last, exits, _⟩ := DataDesk.exit_inside inside
      rw [bind_run, data_run, exits]
      exact ends outcome
  rwa [bind_pure_unit] at around

theorem encloses_scopedBlock (sited : Sited body) (kind : BlockKind) (options : BlockOptions) :
    Encloses location
      (do let _ ← session (Session.openBlock kind options (some location)); pure ()) body
      (scopedBlock kind options location body) := by
  refine encloses_around (raises_session (Action.raises_openBlock kind options location))
    (fun {studio inner after handle outcome} opened ran => ?_)
  cases outcome with
  | error fault => exact fun spanned => congrArg Except.error (spanned.locate location)
  | ok _ =>
      intro own failed
      have kept := sited inner
      rw [ran] at kept
      obtain ⟨session, opens, rfl⟩ : ∃ session,
          Session.openBlock kind options (some location) studio.session = (.ok handle, session) ∧
            inner = { studio with session } := by
        rcases run : Session.openBlock kind options (some location) studio.session with ⟨_, _⟩
        simp only [Act.session, run] at opened
        cases opened
        exact ⟨_, rfl, rfl⟩
      have innermost := kept.trans (Session.openBlock_sites opens).1
      rcases closed : Session.closeBlock handle after.session with ⟨cause | sealed, left⟩
      · simp only [Act.session, Session.leaveBlock, closed] at failed
        cases failed
        exact Session.closeBlock_here innermost closed
      · simp only [Act.session, Session.leaveBlock, closed] at failed
        cases failed

end Act

/-! ## Items and data items -/

namespace TemplateFile

open Act
open Toml (Span)

/-- What can stand in the items of a phase. -/
inductive Entry
  | item (item : Item)
  | datum (item : DataItem)

def entriesOf (items : Items) : List (Span × Entry) :=
  items.map (fun (span, item) => (span, .item item))

def dataEntriesOf (items : DataItems) : List (Span × Entry) :=
  items.map (fun (span, item) => (span, .datum item))

namespace Entry

/-- What stands inside. -/
def nested : Entry → List (Span × Entry)
  | .item (.data _ items) | .datum (.region _ items) => dataEntriesOf items
  | .item statement => entriesOf (statement.nested?.getD [])
  | .datum _ => []

variable (number : Nat) (span : Span)

/-- What an entry does. -/
def run : Entry → Run Unit
  | .item statement => runItem number (spanIn number span) statement
  | .datum statement => runDataItem number statement

/-- What an entry does before it comes to what stands inside. -/
def opening : Entry → Run Unit
  | .item (.block kind attributes _) => do
      let attributes ← Act.ofExcept (attributes.toTable "block attributes")
      let options ← Act.ofExcept (BlockOptions.ofAttributes attributes)
      let _ ← Act.session (Session.openBlock kind options (some (spanIn number span)))
      pure ()
  | .item (.flagged flag _) => do
      let _ ← Act.session (Session.enterAttributes flag.attributes)
      pure ()
  | .item (.attributes attributes _) => do
      let attributes ← Act.ofExcept (attributes.toTable "attributes")
      let _ ← Act.session (Session.enterAttributes attributes)
      pure ()
  | .item (.data region _) => do
      let memory ← Act.session (do pure (← get).currentSection)
      Act.locating site (Act.data (DataDesk.enter region memory))
  | .item (.inSection memory _) => do
      let _ ← Act.session (Session.enterSection memory (spanIn number span))
      pure ()
  | .datum (.region region _) => Act.data (DataDesk.enter region none)
  | entry => entry.run number span

end Entry

/-- Run entries that stand behind each other. -/
def runEntries (number : Nat) : List (Span × Entry) → Run Unit
  | [] => pure ()
  | (span, entry) :: rest => do
      Act.locating (spanIn number span) (entry.run number span)
      runEntries number rest

theorem runEntries_items (number : Nat) (items : Items) :
    runEntries number (entriesOf items) = runItems number items := by
  induction items with
  | nil => rfl
  | cons first rest ih =>
      obtain ⟨span, item⟩ := first
      rw [runItems, ← ih]
      rfl

theorem runEntries_dataItems (number : Nat) (items : DataItems) :
    runEntries number (dataEntriesOf items) = runDataItems number items := by
  induction items with
  | nil => rfl
  | cons first rest ih =>
      obtain ⟨span, item⟩ := first
      rw [runDataItems, ← ih]
      rfl

theorem runDataItems_restores (number : Nat) (items : DataItems) :
    (runDataItems number items).Restores True := by
  obtain ⟨plan, runs⟩ := runDataItems_planned number items
  exact runs ▸ plan.restores

/-! ### What each of them encloses -/

variable (number : Nat) (span : Span)

theorem encloses_dataItem (item : DataItem) :
    Encloses (spanIn number span) (Entry.opening number span (.datum item))
      (runEntries number (Entry.datum item).nested) (runDataItem number item) := by
  cases item with
  | region region items =>
      rw [runDataItem, Entry.nested, runEntries_dataItems]
      exact encloses_region (runDataItems_restores number items)
        (raises_data (DataDesk.raises_enter region none)).here (enter_deeper region none)
        closes_same
  | origin value =>
      refine encloses_nothing (Raises.here ?_)
      exact (raises_ofExcept (unplaced_origin value)).bind
        (fun origin => raises_data (DataDesk.raises_push _))
  | emit id values =>
      refine encloses_nothing (Raises.here ?_)
      exact (Raises.mapM (fun spec _ => raises_dataArgument spec)).bind
        (fun values => raises_data (DataDesk.raises_emit id values))
  | align items => exact encloses_nothing (raises_data (DataDesk.raises_align items)).here
  | label name => exact encloses_nothing (raises_data (DataDesk.raises_push _)).here
  | globalLabel name => exact encloses_nothing (raises_data (DataDesk.raises_push _)).here
  | text content => exact encloses_nothing (raises_data (DataDesk.raises_push _)).here
  | comment content => exact encloses_nothing (raises_data (DataDesk.raises_push _)).here

theorem encloses_item (item : Item) :
    Encloses (spanIn number span) (Entry.opening number span (.item item))
      (runEntries number (Entry.item item).nested) (runItem number (spanIn number span) item) := by
  cases item with
  | block kind attributes items =>
      show Encloses _ _ (runEntries number (entriesOf items)) _
      rw [runItem, runEntries_items]
      refine Encloses.after (raises_ofExcept (unplaced_toTable _ _)).here (fun attributes => ?_)
      refine Encloses.after (raises_ofExcept (unplaced_ofAttributes _)).here (fun options => ?_)
      exact encloses_scopedBlock (runItems_sited number items) kind options
  | flagged flag items =>
      show Encloses _ _ (runEntries number (entriesOf items)) _
      rw [runItem, runEntries_items]
      exact encloses_withAttributes flag.attributes
  | attributes attributes items =>
      show Encloses _ _ (runEntries number (entriesOf items)) _
      rw [runItem, runEntries_items]
      refine Encloses.after (raises_ofExcept (unplaced_toTable _ _)).here (fun attributes => ?_)
      exact encloses_withAttributes attributes
  | data region items =>
      rw [runItem, Entry.nested, runEntries_dataItems]
      refine Encloses.after (raises_session (raises_get.bind (fun _ => raises_pure _)))
        (fun memory => ?_)
      refine encloses_region (runDataItems_restores number items) (raises_locating ?_)
        ((enter_deeper region memory).locating site) (closes_located site)
      exact (raises_data (DataDesk.raises_enter region memory)).mono
        (fun _ unplaced => unplaced.here_site _ _ _)
  | inSection memory items =>
      show Encloses _ _ (runEntries number (entriesOf items)) _
      rw [runItem, runEntries_items]
      exact encloses_inSection memory
  | call call => exact encloses_nothing (raises_call number span call)
  | label name =>
      exact encloses_nothing (raises_session (Action.raises_declare _ _ _ (.label name)))
  | globalLabel name =>
      exact encloses_nothing (raises_session (Action.raises_declare _ _ _ (.globalLabel name)))
  | weakLabel name =>
      exact encloses_nothing (raises_session (Action.raises_declare _ _ _ (.weakLabel name)))
  | numericLabel index =>
      refine encloses_nothing ?_
      exact (raises_ofExcept (unplaced_toLabelIndex index)).here.bind (fun index =>
        raises_session (Action.raises_declare _ _ _ (.numericLabel index)))
  | text content =>
      exact encloses_nothing (raises_session
        (Action.raises_site (Action.raises_inBlock _ _) _ _ _))
  | comment content =>
      exact encloses_nothing (raises_session
        (Action.raises_site (Action.raises_inBlock _ _) _ _ _))

theorem Entry.encloses (entry : Entry) :
    Encloses (spanIn number span) (entry.opening number span) (runEntries number entry.nested)
      (entry.run number span) := by
  cases entry with
  | item item => exact encloses_item number span item
  | datum item => exact encloses_dataItem number span item

/-! ## What a run comes to -/

/-- A run that starts at these entries in this state comes to the entry at a place, and finds this
state there.  A place is a path: the number of an entry, then the number of one that stands in
it, and so on. -/
inductive Reaches (number : Nat) :
    List (Span × Entry) → Studio Memory → List Nat → Span → Entry → Studio Memory → Prop
  | here {span : Span} {entry : Entry} {rest : List (Span × Entry)} {studio : Studio Memory} :
      Reaches number ((span, entry) :: rest) studio [0] span entry studio
  | inside {span inner : Span} {entry reached : Entry} {rest : List (Span × Entry)}
      {studio opened found : Studio Memory} {place : List Nat}
      (opens : entry.opening number span studio = (.ok (), opened))
      (within : Reaches number entry.nested opened place inner reached found) :
      Reaches number ((span, entry) :: rest) studio (0 :: place) inner reached found
  | later {span other : Span} {entry reached : Entry} {rest : List (Span × Entry)}
      {studio after found : Studio Memory} {index : Nat} {place : List Nat}
      (succeeds : entry.run number span studio = (.ok (), after))
      (behind : Reaches number rest after (index :: place) other reached found) :
      Reaches number ((span, entry) :: rest) studio ((index + 1) :: place) other reached found

/-- The entry fails in the state it is reached in. -/
def Fails (number : Nat) (span : Span) (entry : Entry) (found : Studio Memory) : Prop :=
  ∃ own after, entry.run number span found = (.error own, after)

/-- The fault is what the innermost of the entries that failed came to, located there. -/
def PointsAtInnermost (number : Nat) (entries : List (Span × Entry)) (studio : Studio Memory)
    (fault : Fault) : Prop :=
  ∃ place span entry found own after,
    Reaches number entries studio place span entry found ∧
    entry.run number span found = (.error own, after) ∧
    fault = own.locate (spanIn number span) ∧
    fault.location = some (spanIn number span) ∧
    ∀ {other : List Nat} {elsewhere : Span} {outer : Entry} {there : Studio Memory},
      Reaches number entries studio other elsewhere outer there →
      Fails number elsewhere outer there → other <+: place

/-- What is to be known of a run of entries. -/
structure Located (number : Nat) (entries : List (Span × Entry)) : Prop where
  fails : ∀ {studio after : Studio Memory} {fault : Fault},
    runEntries number entries studio = (.error fault, after) →
    PointsAtInnermost number entries studio fault
  /-- Nothing fails inside of what succeeds. -/
  succeeds : ∀ {studio after : Studio Memory}, runEntries number entries studio = (.ok (), after) →
    ∀ {place : List Nat} {span : Span} {entry : Entry} {found : Studio Memory},
      Reaches number entries studio place span entry found → ¬Fails number span entry found

theorem PointsAtInnermost.spanned {number : Nat} {entries : List (Span × Entry)}
    {studio : Studio Memory} {fault : Fault}
    (points : PointsAtInnermost number entries studio fault) : fault.Spanned := by
  obtain ⟨_, span, _, _, _, _, _, _, _, located, _⟩ := points
  exact ⟨number, span.start, span.stop, located⟩

theorem located_nil (number : Nat) : Located number [] where
  fails failed := by cases failed
  succeeds _ := by
    intro place span entry found reaches
    cases reaches

section Cons

variable {entry : Entry} {rest : List (Span × Entry)}

/-- An entry succeeds only if it opens and everything inside of it succeeds. -/
theorem Located.nested_ok (inside : Located number entry.nested) {studio after : Studio Memory}
    (succeeds : entry.run number span studio = (.ok (), after)) :
    ∃ opened last, entry.opening number span studio = (.ok (), opened) ∧
      runEntries number entry.nested opened = (.ok (), last) := by
  have encloses := entry.encloses number span
  rcases opens : entry.opening number span studio with ⟨fault | _, opened⟩
  · obtain ⟨own, last, failed, _⟩ := encloses.refuses opens
    cases failed.symm.trans succeeds
  · rcases ran : runEntries number entry.nested opened with ⟨fault | _, last⟩
    · have ended := encloses.closes opens ran (inside.fails ran).spanned
      rw [succeeds] at ended
      cases ended
    · exact ⟨opened, last, rfl, ran⟩

/-- Nothing fails that a run comes to inside the entry. -/
def WellInside (number : Nat) (span : Span) (entry : Entry) (studio : Studio Memory) : Prop :=
  ∀ {opened : Studio Memory}, entry.opening number span studio = (.ok (), opened) →
    ∀ {place : List Nat} {inner : Span} {reached : Entry} {found : Studio Memory},
      Reaches number entry.nested opened place inner reached found →
      ¬Fails number inner reached found

theorem Located.wellInside (inside : Located number entry.nested) {studio after : Studio Memory}
    (succeeds : entry.run number span studio = (.ok (), after)) :
    WellInside number span entry studio := by
  intro opened opens place inner reached found reaches
  obtain ⟨middle, last, also_opens, nested⟩ := inside.nested_ok number span succeeds
  cases opens.symm.trans also_opens
  exact inside.succeeds nested reaches

section Points

variable {number span} {studio after : Studio Memory} {own fault : Fault}

/-- The first entry fails by itself. -/
theorem PointsAtInnermost.first (failed : entry.run number span studio = (.error own, after))
    (here : own.Here (spanIn number span)) (well : WellInside number span entry studio) :
    PointsAtInnermost number ((span, entry) :: rest) studio (own.locate (spanIn number span)) := by
  refine ⟨[0], span, entry, studio, own, after, .here, failed, rfl, here, ?_⟩
  intro place elsewhere outer there reaches fails
  cases reaches with
  | here => exact List.prefix_rfl
  | inside opens within => exact absurd fails (well opens within)
  | later succeeds => cases succeeds.symm.trans failed

/-- The first entry fails with what has failed inside. -/
theorem PointsAtInnermost.inside {opened : Studio Memory}
    (opens : entry.opening number span studio = (.ok (), opened))
    (points : PointsAtInnermost number entry.nested opened fault)
    (failed : entry.run number span studio = (.error fault, after)) :
    PointsAtInnermost number ((span, entry) :: rest) studio fault := by
  obtain ⟨place, inner, reached, found, own, last, reaches, ran, attached, located, innermost⟩ :=
    points
  refine ⟨0 :: place, inner, reached, found, own, last, .inside opens reaches, ran, attached,
    located, ?_⟩
  intro other elsewhere outer there reaches fails
  cases reaches with
  | here => exact List.cons_prefix_cons.mpr ⟨rfl, List.nil_prefix⟩
  | inside also_opens within =>
      cases opens.symm.trans also_opens
      exact List.cons_prefix_cons.mpr ⟨rfl, innermost within fails⟩
  | later succeeds => cases succeeds.symm.trans failed

/-- The first entry succeeds, and one of the others fails. -/
theorem PointsAtInnermost.later (succeeds : entry.run number span studio = (.ok (), after))
    (well : WellInside number span entry studio)
    (points : PointsAtInnermost number rest after fault) :
    PointsAtInnermost number ((span, entry) :: rest) studio fault := by
  obtain ⟨place, inner, reached, found, own, last, reaches, ran, attached, located, innermost⟩ :=
    points
  obtain ⟨index, path, rfl⟩ : ∃ index path, place = index :: path := by
    cases reaches with
    | here | inside | later => exact ⟨_, _, rfl⟩
  refine ⟨(index + 1) :: path, inner, reached, found, own, last, .later succeeds reaches, ran,
    attached, located, ?_⟩
  intro other elsewhere outer there reaches fails
  cases reaches with
  | here =>
      obtain ⟨_, _, failed⟩ := fails
      cases succeeds.symm.trans failed
  | inside opens within => exact absurd fails (well opens within)
  | later also_succeeds behind =>
      cases succeeds.symm.trans also_succeeds
      obtain ⟨same, deeper⟩ := List.cons_prefix_cons.mp (innermost behind fails)
      exact List.cons_prefix_cons.mpr ⟨congrArg Nat.succ same, deeper⟩

end Points

/-- A run of entries ends as its first entry does if that one fails, with the span attached. -/
theorem runEntries_first {studio after : Studio Memory} {own : Fault}
    (failed : entry.run number span studio = (.error own, after)) :
    runEntries number ((span, entry) :: rest) studio =
      (.error (own.locate (spanIn number span)), after) := by
  rw [runEntries, bind_run, Act.locating, failed]
  rfl

theorem runEntries_rest {studio after : Studio Memory}
    (succeeds : entry.run number span studio = (.ok (), after)) :
    runEntries number ((span, entry) :: rest) studio = runEntries number rest after := by
  rw [runEntries, bind_run, Act.locating, succeeds]
  rfl

theorem Located.cons (inside : Located number entry.nested) (behind : Located number rest) :
    Located number ((span, entry) :: rest) where
  fails := by
    intro studio after fault failed
    have encloses := entry.encloses number span
    rcases ran : entry.run number span studio with ⟨own | _, last⟩
    · cases (runEntries_first number span ran).symm.trans failed
      rcases opens : entry.opening number span studio with ⟨refusal | _, opened⟩
      · obtain ⟨cause, final, refused, here⟩ := encloses.refuses opens
        cases refused.symm.trans ran
        exact .first ran here (fun opened => by cases opened.symm.trans opens)
      · rcases nested : runEntries number entry.nested opened with ⟨inner | _, final⟩
        · -- What failed inside has a span, so it goes out as it is.
          have points := inside.fails nested
          have ended := encloses.closes opens nested points.spanned
          rw [ran] at ended
          cases ended
          rw [points.spanned.locate]
          exact .inside opens points ran
        · have here := encloses.closes opens nested own (by rw [ran])
          refine .first ran here (fun also_opens => ?_)
          cases opens.symm.trans also_opens
          exact inside.succeeds nested
    · rw [runEntries_rest number span ran] at failed
      exact .later ran (inside.wellInside number span ran) (behind.fails failed)
  succeeds := by
    intro studio after run place elsewhere reached found reaches
    rcases ran : entry.run number span studio with ⟨own | _, middle⟩
    · cases (runEntries_first number span ran).symm.trans run
    · rw [runEntries_rest number span ran] at run
      cases reaches with
      | here =>
          rintro ⟨own, final, failed⟩
          cases ran.symm.trans failed
      | inside opens within => exact inside.wellInside number span ran opens within
      | later succeeds further =>
          cases ran.symm.trans succeeds
          exact behind.succeeds run further

end Cons

mutual

theorem dataItem_located (number : Nat) : ∀ item : DataItem,
    Located number (Entry.datum item).nested
  | .region _ items => dataItems_located number items
  | .origin _ | .align _ | .label _ | .globalLabel _ | .text _ | .comment _ | .emit _ _ =>
      located_nil number

theorem dataItems_located (number : Nat) : ∀ items : DataItems,
    Located number (dataEntriesOf items)
  | [] => located_nil number
  | (span, item) :: rest =>
      (dataItem_located number item).cons number span (dataItems_located number rest)

end

mutual

theorem item_located (number : Nat) : ∀ item : Item, Located number (Entry.item item).nested
  | .block _ _ items | .flagged _ items | .attributes _ items | .inSection _ items =>
      items_located number items
  | .data _ items => dataItems_located number items
  | .call _ | .label _ | .globalLabel _ | .weakLabel _ | .numericLabel _ | .text _ | .comment _ =>
      located_nil number

theorem items_located (number : Nat) : ∀ items : Items, Located number (entriesOf items)
  | [] => located_nil number
  | (span, item) :: rest =>
      (item_located number item).cons number span (items_located number rest)

end

/-- **Faults point at the innermost.**  If the items of a phase fail, in whatever state they
began, then the fault that comes out is located in the file, at the span of the innermost item or
data item that failed: all others that failed stand around it.  The span was attached to what
that one came to by itself, after which no location that is attached on the way out counts: of
all that are attached to a fault, the first span stays, or the first location if there is no
span. -/
theorem fault_points_at_innermost (number : Nat) (items : Items) :
    (∀ (studio after : Studio Memory) (fault : Fault),
      runItems number items studio = (.error fault, after) →
      PointsAtInnermost number (entriesOf items) studio fault) ∧
    ∀ (fault : Fault) (locations : List (Option Location)),
      (locations.foldl Fault.locate? fault).location =
        Location.first? (fault.location.toList ++ locations.filterMap id) := by
  refine ⟨fun studio after fault failed => ?_, Fault.locates⟩
  rw [← runEntries_items] at failed
  exact (items_located number items).fails failed

/-- A call, and a numeric label without a number, in a block in a section. -/
def wordForNumber : Items :=
  [(⟨0, 10⟩, .call { name := "nop" }),
   (⟨20, 90⟩, .inSection { kind := .text, physical := 0, virtual := 0 }
     [(⟨30, 80⟩, .block .sequence (.map []) [(⟨40, 70⟩, .numericLabel (.text "one"))])])]

/-- In a main phase, the fault is located at the label and not at what stands around it. -/
theorem fault_points_at_innermost_label :
    let studio : Studio Memory :=
      { session := { Session.new {} with
          lifecycle := .mainRunning, blocks := [{ id := BlockId.root, kind := .sequence }] },
        memory := {} }
    ∃ fault after, runItems 3 wordForNumber studio = (.error fault, after) ∧
      fault.location = some (.span 3 40 70) ∧
      PointsAtInnermost 3 (entriesOf wordForNumber) studio fault := by
  intro studio
  obtain ⟨fault, after, failed, located⟩ : ∃ fault after,
      runItems 3 wordForNumber studio = (.error fault, after) ∧
        fault.location = some (.span 3 40 70) := ⟨_, _, rfl, rfl⟩
  exact ⟨fault, after, failed, located,
    (fault_points_at_innermost 3 wordForNumber).1 studio after fault failed⟩

end TemplateFile
end TestProgram
