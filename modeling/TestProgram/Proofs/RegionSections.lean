/-
# TestProgram.Proofs.RegionSections -- a region of data becomes one section

However deep the regions in a region of data are nested, they write into the one section that the
outermost of them has opened.  The body of a region is a plan, and its run passes through a list
of statements, each at a desk of its own, whichever regions they stand in and whether they succeed
or fail (`RegionPlan.steps`).  What such a list leaves is told by an account
(`RegionStep.Account`): the directives of the statements that succeeded are appended to the open
section, in their order, and nothing else of the store has changed that a region could depend on.

An account is kept by every way of putting bodies together, so the section of a whole region is
read off its statements (`region_becomes_section`).
-/
import TestProgram.Proofs.DataHistories

namespace TestProgram

set_option autoImplicit false

open TestProgram.Computation

/-! ## Statements of a run -/

/-- A statement of a region at the desk where it is made. -/
structure RegionStep where
  statement : DataStatement
  desk : DataDesk

namespace RegionStep

def outcome (step : RegionStep) : Except Fault Unit :=
  (step.statement.perform step.desk).1

/-- The directive that the step comes to; one that fails comes to none. -/
def directive? (step : RegionStep) : Option DataDirective :=
  step.statement.draft?.bind fun draft => (draft step.desk).1.toOption

end RegionStep

/-- The statements that the functions of a page table pass through. -/
def DeskPlan.steps {α : Type} : DeskPlan α → DataDesk → List RegionStep
  | .aside _ _, _ => []
  | .statement made, desk => [{ statement := made, desk }]
  | .bind first next, desk => first.steps desk ++
      match first.run desk with
      | (.ok value, after) => (next value).steps after
      | (.error _, _) => []
  | .attempt body, desk => body.steps desk
  | .region kind body, desk =>
      match DataDesk.enter kind none desk with
      | (.ok (), within) => body.steps within
      | (.error _, _) => []
  | .pageTableEntry prepares adapts preparator adaptor entry, desk =>
      match entry with
      | .attributes attributes => if prepares then (preparator attributes).steps desk else []
      | .memory object => if adapts then (adaptor object).steps desk else []

/-- The statements that the body of a region passes through, in the order in which they are made,
those of inner regions and of page table entries among them. -/
def RegionPlan.steps {ε α : Type} : RegionPlan ε α → Studio ε → List RegionStep
  | .aloof _ _, _ => []
  | .desk plan, studio => plan.steps studio.desk
  | .bind first next, studio => first.steps studio ++
      match first.run studio with
      | (.ok value, after) => (next value).steps after
      | (.error _, _) => []
  | .attempt body, studio => body.steps studio
  | .locating _ body, studio => body.steps studio
  | .region kind body, studio =>
      match DataDesk.enter kind none studio.desk with
      | (.ok (), within) => body.steps (studio.atDesk within)
      | (.error _, _) => []

/-! ## What a statement writes -/

/-- The directive that a statement of a region writes at a desk.  The values of an emission are
drawn one by one before their shape is looked at. -/
inductive DataStatement.Writes (desk : DataDesk) : DataStatement → DataDirective → Prop
  | origin (place : Origin) : Writes desk (.origin place) place.directive
  | align {items : Nat} (fits : items * desk.store.itemSize < MachineWord.long) :
      Writes desk (.align items) (.align items ((items * desk.store.itemSize + 7) / 8))
  | label (name : String) (isGlobal : Bool) :
      Writes desk (.label name isGlobal)
        (.label { name := .named name, isGlobal, scope := BlockId.root })
  | text (content : String) : Writes desk (.text content) (.text content)
  | comment (content : String) : Writes desk (.comment content) (.comment content)
  | emit {id : String} {values : List Argument} {definition : DataDefinition}
      {drawn : List Scalar} {after : DataDesk} {directive : DataDirective}
      (known : desk.store.definition? id = some definition)
      (draws : values.mapM DataDesk.drawValue desk = (.ok drawn, after))
      (prescribed : definition.Prescribes drawn directive) :
      Writes desk (.emit id values) directive

theorem DataDesk.draftValues_ok_iff {id : String} {values : List Argument} {desk : DataDesk}
    {directive : DataDirective} :
    (draftValues id values desk).1 = .ok directive ↔
      ∃ definition drawn after, desk.store.definition? id = some definition ∧
        values.mapM drawValue desk = (.ok drawn, after) ∧
        definition.Prescribes drawn directive := by
  have looked : (get : DataAction DataDesk) desk = (.ok desk, desk) := rfl
  rw [draftValues, bind_run, looked]
  cases known : desk.store.definition? id with
  | none =>
      simp only [known]
      constructor
      · intro comes
        cases comes
      · rintro ⟨_, _, _, same, _⟩
        cases same
  | some definition =>
      simp only [known, bind_run]
      rcases draws : values.mapM drawValue desk with ⟨fault | drawn, after⟩
      · constructor
        · intro comes
          cases comes
        · rintro ⟨_, _, _, _, same, _⟩
          cases same
      · constructor
        · intro comes
          exact ⟨definition, drawn, after, rfl, rfl, DataDefinition.directive_ok_iff.mp comes⟩
        · rintro ⟨_, _, _, same, also, prescribed⟩
          cases same
          cases also
          exact DataDefinition.directive_ok_iff.mpr prescribed

theorem DataDesk.draftAlignment_ok_iff {items : Nat} {desk : DataDesk}
    {directive : DataDirective} :
    (draftAlignment items desk).1 = .ok directive ↔
      items * desk.store.itemSize < MachineWord.long ∧
        directive = .align items ((items * desk.store.itemSize + 7) / 8) := by
  show desk.store.alignment items = _ ↔ _
  simp only [DataStore.alignment]
  split
  · rename_i fits
    simp [fits, eq_comm]
  · rename_i large
    simp [large]

theorem Except.toOption_eq_some_iff {α : Type} {outcome : Except Fault α} {value : α} :
    outcome.toOption = some value ↔ outcome = .ok value := by
  cases outcome <;> simp [Except.toOption]

namespace RegionStep

theorem directive?_eq_some_iff {step : RegionStep} {directive : DataDirective} :
    step.directive? = some directive ↔ step.statement.Writes step.desk directive := by
  obtain ⟨statement, desk⟩ := step
  constructor
  · intro comes
    cases statement with
    | define definition => cases comes
    | align items =>
        obtain ⟨fits, rfl⟩ :=
          DataDesk.draftAlignment_ok_iff.mp (Except.toOption_eq_some_iff.mp comes)
        exact .align fits
    | emit id values =>
        obtain ⟨definition, drawn, after, known, draws, prescribed⟩ :=
          DataDesk.draftValues_ok_iff.mp (Except.toOption_eq_some_iff.mp comes)
        exact .emit known draws prescribed
    | origin place => cases comes; exact .origin place
    | label name isGlobal => cases comes; exact .label name isGlobal
    | text content => cases comes; exact .text content
    | comment content => cases comes; exact .comment content
  · intro writes
    cases writes with
    | align fits =>
        exact Except.toOption_eq_some_iff.mpr (DataDesk.draftAlignment_ok_iff.mpr ⟨fits, rfl⟩)
    | emit known draws prescribed =>
        exact Except.toOption_eq_some_iff.mpr
          (DataDesk.draftValues_ok_iff.mpr ⟨_, _, _, known, draws, prescribed⟩)
    | _ => rfl

end RegionStep

/-! ## Inside a region -/

/-- A region is open in the store. -/
structure DataStore.Inside (store : DataStore) : Prop where
  configured : store.state = .configured
  told : store.config.isSome = true
  deep : 0 < store.depth
  opened : store.current.isSome = true

/-- What some statements that were made inside a region have done to the store: they have written
the directives of those that succeeded, and have left alone what the region depends on. -/
structure RegionStep.Account (steps : List RegionStep) (before after : DataStore) : Prop where
  current : ∀ region, before.current = some region →
    after.current = some { region with
      directives := region.directives ++ steps.filterMap RegionStep.directive? }
  sections : after.sections = before.sections
  depth : after.depth = before.depth
  state : after.state = before.state
  config : after.config = before.config
  inside : ∀ step ∈ steps, step.desk.store.Inside

namespace RegionStep

variable {steps others : List RegionStep} {before middle after : DataStore}

theorem Account.refl (store : DataStore) : Account [] store store where
  current region opened := by simpa using opened
  sections := rfl
  depth := rfl
  state := rfl
  config := rfl
  inside := fun _ member => absurd member List.not_mem_nil

theorem Account.trans (here : Account steps before middle) (there : Account others middle after) :
    Account (steps ++ others) before after where
  current region opened := by
    rw [there.current _ (here.current region opened), List.filterMap_append, List.append_assoc]
  sections := there.sections.trans here.sections
  depth := there.depth.trans here.depth
  state := there.state.trans here.state
  config := there.config.trans here.config
  inside := List.forall_mem_append.mpr ⟨here.inside, there.inside⟩

theorem Account.inside_after (account : Account steps before after) (inside : before.Inside) :
    after.Inside where
  configured := account.state.trans inside.configured
  told := by rw [account.config, inside.told]
  deep := by rw [account.depth]; exact inside.deep
  opened := by
    obtain ⟨region, opened⟩ := Option.isSome_iff_exists.mp inside.opened
    rw [account.current region opened, Option.isSome_some]

theorem Account.of_same (inside : ∀ step ∈ steps, step.desk.store.Inside)
    (nothing : steps.filterMap RegionStep.directive? = []) (same : after = before) :
    Account steps before after := by
  subst same
  exact { Account.refl after with
    current := fun region opened => by simpa [nothing] using opened
    inside }

theorem directive?_draft {statement : DataStatement} {draft : DataAction DataDirective}
    (drafts : statement.draft? = some draft) (desk : DataDesk) :
    RegionStep.directive? { statement, desk } = (draft desk).1.toOption := by
  rw [directive?, drafts, Option.bind_some]

/-- A definition leaves the open section as it is. -/
theorem account_define {definition : DataDefinition} {desk : DataDesk}
    (inside : desk.store.Inside) :
    Account [{ statement := .define definition, desk }] desk.store
      (DataDesk.define definition desk).2.store := by
  rcases DataDesk.define_run definition desk with
    ⟨fault, _, refused⟩ | ⟨store, engine, defined, _, run⟩
  · rw [refused]
    exact .of_same (by simpa using inside) rfl rfl
  · rw [run]
    cases DataOperation.effect_define defined with
    | defines => exact { Account.of_same (by simpa using inside) rfl rfl with }
    | writes drafts => cases drafts

/-- A statement that is made inside a region writes its directive. -/
theorem account_perform {statement : DataStatement} {desk : DataDesk}
    (inside : desk.store.Inside) :
    Account [{ statement, desk }] desk.store (statement.perform desk).2.store := by
  cases drafts : statement.draft? with
  | none =>
      obtain ⟨definition, rfl⟩ := DataStatement.eq_define drafts
      exact account_define inside
  | some draft =>
      have comes := directive?_draft drafts desk
      have same := DataStatement.aside_draft drafts desk
      rw [DataStatement.perform_draft drafts, bind_run]
      rcases run : draft desk with ⟨fault | directive, middle⟩
      · rw [run] at same comes
        refine .of_same (by simpa using inside) ?_ same
        rw [List.filterMap_cons_none comes, List.filterMap_nil]
      · rw [run] at comes
        replace same : middle.store = desk.store := by rw [run] at same; exact same
        obtain ⟨region, opened⟩ := Option.isSome_iff_exists.mp inside.opened
        simp only [DataDesk.push_inside (same ▸ opened) directive, same]
        refine { Account.refl desk.store with current := ?_, inside := by simpa using inside }
        intro other found
        cases opened.symm.trans found
        rw [List.filterMap_cons_some comes, List.filterMap_nil]

/-- A statement that is made inside a region succeeds when it comes to a directive. -/
theorem outcome_ok_iff {step : RegionStep} (inside : step.desk.store.Inside)
    (writing : ∀ definition, step.statement ≠ .define definition) :
    step.outcome = .ok () ↔ ∃ directive, step.directive? = some directive := by
  obtain ⟨statement, desk⟩ := step
  cases drafts : statement.draft? with
  | none =>
      obtain ⟨definition, defines⟩ := DataStatement.eq_define drafts
      exact absurd defines (writing definition)
  | some draft =>
      have same := DataStatement.aside_draft drafts desk
      rw [directive?_draft drafts, outcome, DataStatement.perform_draft drafts, bind_run]
      rcases run : draft desk with ⟨fault | directive, middle⟩
      · simp [Except.toOption]
      · replace same : middle.store = desk.store := by rw [run] at same; exact same
        obtain ⟨region, opened⟩ := Option.isSome_iff_exists.mp inside.opened
        simp only [DataDesk.push_inside (same ▸ opened) directive]
        exact ⟨fun _ => ⟨directive, rfl⟩, fun _ => trivial⟩

end RegionStep

/-! ## Entering and leaving -/

namespace DataStore

variable {store : DataStore}

/-- The store when an outermost region has been entered. -/
def opening (store : DataStore) (config : DataConfig) (region : DataRegion)
    (memory : Option MemorySection) : DataStore :=
  { store with
    depth := 1
    current := some { target := config.target, isGlobal := region.isGlobal,
                      inSeparateFile := region.inSeparateFile, memory }
    opened := store.opened + 1 }

section Outermost

variable {config : DataConfig} (configured : store.state = .configured)
  (told : store.config = some config) (region : DataRegion) (memory : Option MemorySection)

include configured told

theorem enter_outermost (outside : store.depth = 0) :
    store.enter region memory = .ok (store.opening config region memory) := by
  simp only [enter, configured, told, outside, if_true, opening]

theorem inside_opening : (store.opening config region memory).Inside :=
  ⟨configured, Option.isSome_iff_exists.mpr ⟨config, told⟩, Nat.one_pos, rfl⟩

end Outermost

theorem enter_inside (inside : store.Inside) (region : DataRegion)
    (memory : Option MemorySection) :
    store.enter region memory = .ok { store with depth := store.depth + 1 } := by
  obtain ⟨config, told⟩ := Option.isSome_iff_exists.mp inside.told
  simp only [enter, inside.configured, told, if_neg (Nat.pos_iff_ne_zero.mp inside.deep)]

theorem exit_inside (deep : 1 < store.depth) :
    store.exit = .ok { store with depth := store.depth - 1 } := by
  rw [exit, if_neg (by omega), if_neg (by omega)]

theorem exit_outermost (last : store.depth = 1) :
    store.exit = .ok { store with
      depth := 0
      current := none
      sections := store.sections ++ store.current.toList
      closed := store.closed + 1 } := by
  rw [exit, if_neg (by omega), if_pos last]

end DataStore

namespace DataDesk

variable {desk : DataDesk} {store : DataStore}

theorem enter_ok {region : DataRegion} {memory : Option MemorySection}
    (entered : desk.store.enter region memory = .ok store) :
    ∃ within, enter region memory desk = (.ok (), within) ∧ within.store = store := by
  rcases enter_run region memory desk with ⟨_, failed, _⟩ | ⟨_, engine, also, _, run⟩
  · cases entered.symm.trans failed
  · cases entered.symm.trans also
    exact ⟨_, run, rfl⟩

theorem exit_ok (exited : desk.store.exit = .ok store) :
    ∃ left, exit desk = (.ok (), left) ∧ left.store = store := by
  rcases exit_run desk with ⟨_, failed, _⟩ | ⟨_, engine, also, _, run⟩
  · cases exited.symm.trans failed
  · cases exited.symm.trans also
    exact ⟨_, run, rfl⟩

end DataDesk

/-! ## Bodies -/

section Bodies

open RegionStep

variable {steps : List RegionStep} {before : DataStore}

theorem DataStore.Inside.deeper (inside : before.Inside) :
    DataStore.Inside { before with depth := before.depth + 1 } :=
  { inside with deep := Nat.succ_pos before.depth }

/-- The account of the body of an inner region is an account of the region. -/
theorem RegionStep.Account.leave {inner : DataStore}
    (account : Account steps { before with depth := before.depth + 1 } inner) :
    Account steps before { inner with depth := inner.depth - 1 } :=
  { account with depth := by rw [account.depth]; exact Nat.add_sub_cancel before.depth 1 }

theorem RegionStep.Account.deep {inner : DataStore} (inside : before.Inside)
    (account : Account steps { before with depth := before.depth + 1 } inner) :
    1 < inner.depth := by
  rw [account.depth]
  exact Nat.succ_lt_succ inside.deep

theorem DeskPlan.account {α : Type} (plan : DeskPlan α) (desk : DataDesk)
    (inside : desk.store.Inside) :
    Account (plan.steps desk) desk.store (plan.run desk).2.store := by
  induction plan generalizing desk with
  | aside action apart =>
      rw [DeskPlan.run, apart]
      exact .refl desk.store
  | statement made => exact account_perform inside
  | bind first next here there =>
      have account := here desk inside
      rw [DeskPlan.run, DeskPlan.steps, bind_run]
      rcases run : first.run desk with ⟨fault | value, middle⟩
      · rw [run] at account
        simpa using account
      · rw [run] at account
        exact account.trans (there value middle (account.inside_after inside))
  | attempt body ih => exact ih desk inside
  | region kind body ih =>
      obtain ⟨within, entered, store⟩ :=
        DataDesk.enter_ok (DataStore.enter_inside inside kind none)
      have account := ih within (store ▸ inside.deeper)
      rw [store] at account
      obtain ⟨left, exited, last⟩ :=
        DataDesk.exit_ok (DataStore.exit_inside (account.deep inside))
      rw [DeskPlan.run, DeskPlan.steps, DataDesk.nested, bind_run, entered]
      show Account _ desk.store ((do DataDesk.exit; ExceptT.mk (pure (body.run within).1) :
        DataAction Unit) (body.run within).2).2.store
      rw [bind_run, exited]
      exact last ▸ account.leave
  | pageTableEntry prepares adapts preparator adaptor entry prepared adapted =>
      cases entry with
      | attributes attributes =>
          cases prepares
          · exact .refl desk.store
          · exact prepared attributes desk inside
      | memory object =>
          cases adapts
          · exact .refl desk.store
          · exact adapted object desk inside

/-- The run of a region that is entered and left. -/
theorem Act.enclosed_run {ε : Type} {opening : Act ε Unit} {body : Act ε Unit}
    (ending : Except Fault Unit → Except Fault Unit) {studio within : Studio ε} {left : DataDesk}
    (opens : opening studio = (.ok (), within))
    (leaves : DataDesk.exit (body within).2.desk = (.ok (), left)) :
    (do opening; let outcome ← attempt body; Act.data DataDesk.exit; ofExcept (ending outcome) :
      Act ε Unit) studio = (ending (body within).1, (body within).2.atDesk left) := by
  rw [bind_run, opens]
  show ((do Act.data DataDesk.exit; ofExcept (ending (body within).1) : Act ε Unit)
    (body within).2) = _
  rw [bind_run, Act.data_run, leaves]
  rfl

theorem RegionPlan.account {ε α : Type} (plan : RegionPlan ε α) (studio : Studio ε)
    (inside : studio.session.data.Inside) :
    Account (plan.steps studio) studio.session.data (plan.run studio).2.session.data := by
  induction plan generalizing studio with
  | aloof act apart =>
      have same : (act studio).2.session.data = studio.session.data :=
        congrArg Session.data (apart studio)
      show Account [] studio.session.data (act studio).2.session.data
      rw [same]
      exact .refl studio.session.data
  | desk plan => exact plan.account studio.desk inside
  | bind first next here there =>
      have account := here studio inside
      show Account _ studio.session.data
        ((first.run >>= fun value => (next value).run) studio).2.session.data
      rw [RegionPlan.steps, bind_run]
      rcases run : first.run studio with ⟨fault | value, middle⟩
      · rw [run] at account
        simpa using account
      · rw [run] at account
        exact account.trans (there value middle (account.inside_after inside))
  | attempt body ih => exact ih studio inside
  | locating location body ih => exact ih studio inside
  | region kind body ih =>
      have deepens : studio.desk.store.enter kind none = .ok { studio.session.data with
          depth := studio.session.data.depth + 1 } := DataStore.enter_inside inside kind none
      obtain ⟨within, entered, store⟩ := DataDesk.enter_ok deepens
      have opens : (Act.data (DataDesk.enter kind none) : Act ε Unit) studio =
          (.ok (), studio.atDesk within) := by
        rw [Act.data_run, entered]
      have deeper : within.store.Inside := store ▸ inside.deeper
      have account := ih (studio.atDesk within) deeper
      rw [show (studio.atDesk within).session.data = _ from store] at account
      have leaves : (body.run (studio.atDesk within)).2.desk.store.exit = _ :=
        DataStore.exit_inside (account.deep inside)
      obtain ⟨left, exited, last⟩ := DataDesk.exit_ok leaves
      have run : (RegionPlan.region kind body).run studio =
          ((body.run (studio.atDesk within)).1, (body.run (studio.atDesk within)).2.atDesk left) :=
        Act.enclosed_run id opens exited
      rw [run, RegionPlan.steps, entered]
      show Account (body.steps (studio.atDesk within)) studio.session.data left.store
      exact last ▸ account.leave

end Bodies

/-! ## Whole regions -/

/-- The studio in which the body of an outermost region runs. -/
def Studio.entered {ε : Type} (studio : Studio ε) (region : DataRegion) : Studio ε :=
  studio.atDesk (DataDesk.enter region studio.session.currentSection studio.desk).2

theorem Studio.entered_data {ε : Type} {studio : Studio ε} {config : DataConfig}
    (configured : studio.session.data.state = .configured)
    (told : studio.session.data.config = some config)
    (outermost : studio.session.data.depth = 0) (region : DataRegion) :
    (DataDesk.enter region studio.session.currentSection studio.desk).1 = .ok () ∧
      (studio.entered region).session.data =
        studio.session.data.opening config region studio.session.currentSection := by
  have opens : studio.desk.store.enter region studio.session.currentSection = .ok _ :=
    DataStore.enter_outermost configured told region studio.session.currentSection outermost
  obtain ⟨within, entered, store⟩ := DataDesk.enter_ok opens
  rw [Studio.entered, entered]
  exact ⟨rfl, store⟩

/-- The run of an outermost region that is entered and left. -/
theorem Act.dataRegion_run {ε : Type} {region : DataRegion} {body : Act ε Unit}
    {studio : Studio ε} {left : DataDesk} (location : Location)
    (opens : (DataDesk.enter region studio.session.currentSection studio.desk).1 = .ok ())
    (exited : DataDesk.exit (body (studio.entered region)).2.desk = (.ok (), left)) :
    Act.dataRegion region location body studio =
      (located location (body (studio.entered region)).1,
        (body (studio.entered region)).2.atDesk left) := by
  have entered : Act.locating location
      (Act.data (DataDesk.enter region studio.session.currentSection)) studio =
        (.ok (), studio.entered region) := by
    simp only [Act.locating, Act.data_run, opens]
    rfl
  exact Act.enclosed_run (located location) entered exited

/-- **A region becomes one section.**  In configured data, an outermost region whose body is any
plan, whatever regions and page table entries it nests and wherever it fails, appends exactly one
section to the finished ones: with the flags of the outermost region and the memory section it
stands in, and with the directives of the statements that succeeded, in their order.  A statement
succeeds when it has a directive to write, and a directive is the one that its statement
prescribes; through a definition, it is the one that the definition prescribes for the values
drawn. -/
theorem region_becomes_section {ε : Type} (region : DataRegion) (location : Location)
    (body : RegionPlan ε Unit) (studio : Studio ε) (config : DataConfig)
    (configured : studio.session.data.state = .configured)
    (told : studio.session.data.config = some config)
    (outermost : studio.session.data.depth = 0) :
    let steps := body.steps (studio.entered region)
    let after := (Act.dataRegion region location body.run studio).2.session.data
    after.sections = studio.session.data.sections ++
        [{ target := config.target, isGlobal := region.isGlobal,
           inSeparateFile := region.inSeparateFile, memory := studio.session.currentSection,
           directives := steps.filterMap RegionStep.directive? }] ∧
      (∀ step ∈ steps, (∀ definition, step.statement ≠ .define definition) →
        (step.outcome = .ok () ↔ ∃ directive, step.directive? = some directive)) ∧
      (∀ step ∈ steps, ∀ directive, step.directive? = some directive ↔
        step.statement.Writes step.desk directive) := by
  intro steps after
  obtain ⟨opens, data⟩ := Studio.entered_data configured told outermost region
  have inside : (studio.entered region).session.data.Inside :=
    data ▸ DataStore.inside_opening configured told region studio.session.currentSection
  have account := body.account (studio.entered region) inside
  refine ⟨?_, fun step member => RegionStep.outcome_ok_iff (account.inside step member),
    fun step _ directive => RegionStep.directive?_eq_some_iff⟩
  rw [data] at account
  have closes : (body.run (studio.entered region)).2.desk.store.exit = .ok _ :=
    DataStore.exit_outermost account.depth
  obtain ⟨left, exited, last⟩ := DataDesk.exit_ok closes
  have ended : after = left.store := by
    show (Act.dataRegion region location body.run studio).2.session.data = _
    rw [Act.dataRegion_run location opens exited]
    rfl
  have written : (body.run (studio.entered region)).2.session.data.current = some _ :=
    account.current _ rfl
  rw [ended, last]
  show (body.run (studio.entered region)).2.session.data.sections ++
    (body.run (studio.entered region)).2.session.data.current.toList = _
  rw [account.sections, written]
  rfl

/-- A studio in which data is configured, with one type and a memory section in force. -/
def configuredStudio : Studio Unit where
  session := { Session.new {} with
    data := {
      state := .configured
      config := some { target := "model" }
      definitions := [("word", ⟨"word", ".word", .values ⟨"card", [32]⟩⟩)]
      sections := [{ target := "earlier" }] }
    sections := [⟨.named "tables", 0, 0, none⟩] }
  memory := ()

/-- A body that recovers from a use of what is not defined, and fails in an inner region. -/
def recoveringBody : RegionPlan Unit Unit :=
  .bind (.desk (.statement (.label "table" true))) fun _ =>
  .bind (.attempt (.desk (.statement (.emit "byte" [])))) fun _ =>
  .region { isGlobal := true } (.bind
    (.desk (.statement (.emit "word" [.value (.integer 3), .value (.integer 4)])))
    fun _ => .aloof (throw (Fault.of .unnamedSection)) (Act.aloof_throw _))

theorem region_becomes_section_recovering :
    configuredStudio.session.data.state = .configured ∧
      configuredStudio.session.data.config = some { target := "model" } ∧
      configuredStudio.session.data.depth = 0 ∧
      (Act.dataRegion { inSeparateFile := true } (.caller "tables" 1 1) recoveringBody.run
          configuredStudio).2.session.data.sections =
        [{ target := "earlier" },
          { target := "model"
            inSeparateFile := true
            memory := some ⟨.named "tables", 0, 0, none⟩
            directives :=
              [.label { name := .named "table", isGlobal := true, scope := BlockId.root },
                .values ".word" ⟨"card", [32]⟩ [.integer 3, .integer 4]] }] := by
  have holds := region_becomes_section { inSeparateFile := true } (.caller "tables" 1 1)
    recoveringBody configuredStudio { target := "model" } rfl rfl rfl
  exact ⟨rfl, rfl, rfl, holds.1⟩

end TestProgram
