/-
# TestProgram.Proofs.Scopes -- scopes end with their bodies

Attribute scopes, memory sections and regions of data enclose a body, and each of them puts back
what it found when the body has ended.  Attribute scopes and sections cut their stacks down to a
height they have noted, regions count back by one; a body that nests others must therefore have
put back all that it found itself, in whatever way it has ended.

`Session.Restored` says what a body that has ended gives back, and `Plan.restores` that every plan
does, by induction on the plan with its two outcomes at every step.  What opens memory sections is
one deed, and it opens none inside another, so at every moment of every run there is at most one.
-/
import TestProgram.Proofs.Plans

namespace TestProgram

set_option autoImplicit false

/-! ## The depth of regions -/

namespace DataDesk

variable {α β : Type}

/-- The action ends in as many regions as it has begun in. -/
def Level (action : DataAction α) : Prop :=
  ∀ desk, (action desk).2.store.depth = desk.store.depth

theorem level_of_store {action : DataAction α}
    (apart : ∀ desk, (action desk).2.store = desk.store) : Level action :=
  fun desk => congrArg DataStore.depth (apart desk)

theorem Level.bind {first : DataAction α} {next : α → DataAction β} (here : Level first)
    (there : ∀ value, Level (next value)) : Level (first >>= next) := by
  intro desk
  have kept := here desk
  rw [Computation.bind_run]
  rcases run : first desk with ⟨_ | value, after⟩
  · rw [run] at kept
    exact kept
  · rw [run] at kept
    exact (there value after).trans kept

theorem Level.mapM {step : α → DataAction β} (each : ∀ item, Level (step item)) :
    ∀ items : List α, Level (items.mapM step)
  | [] => by
      rw [List.mapM_nil]
      exact level_of_store (fun _ => rfl)
  | item :: rest => by
      rw [List.mapM_cons]
      exact (each item).bind (fun _ => (Level.mapM each rest).bind (fun _ =>
        level_of_store (fun _ => rfl)))

theorem Level.attempt {action : DataAction α} (level : Level action) :
    Level (DataDesk.attempt action) :=
  level

/-- An operation of the store that keeps the depth, if it succeeds, keeps it on the desk. -/
theorem level_update {change : DataStore → Except Fault DataStore}
    (keeps : ∀ store after, change store = .ok after → after.depth = store.depth) :
    Level (update change) := by
  intro desk
  unfold update
  cases changed : change desk.store with
  | ok store => exact keeps _ _ changed
  | error fault => rfl

theorem level_remark (remark : Remark) : Level (DataDesk.remark remark) :=
  fun _ => rfl

theorem level_push (directive : DataDirective) : Level (push directive) := by
  refine level_update (fun store after pushed => ?_)
  unfold DataStore.push at pushed
  split at pushed <;> cases pushed
  rfl

theorem level_beginConfig (config : DataConfig) : Level (beginConfig config) := by
  refine (level_update (fun store after begun => ?_)).bind (fun _ => level_remark _)
  unfold DataStore.beginConfig at begun
  split at begun <;> cases begun
  rfl

theorem level_endConfig : Level endConfig := by
  intro desk
  show desk.store.endConfig.depth = desk.store.depth
  unfold DataStore.endConfig
  split <;> rfl

theorem level_define (definition : DataDefinition) : Level (define definition) := by
  refine Level.bind (level_of_store (fun _ => rfl)) (fun desk => ?_)
  refine (level_update (fun store after defined => ?_)).bind (fun _ => ?_)
  · unfold DataStore.define at defined
    split at defined <;> cases defined
    rfl
  · split
    · exact level_remark _
    · exact level_of_store (fun _ => rfl)

theorem level_draw {γ : Type} (sampler : Distribution.Sampler γ) : Level (drawValue.draw sampler) :=
  fun _ => rfl

theorem level_drawValue (argument : Argument) : Level (drawValue argument) := by
  cases argument with
  | range lowest highest =>
      exact (level_draw _).bind (fun _ => level_of_store (fun _ => rfl))
  | random distribution => exact level_draw _
  | _ => exact level_of_store (fun _ => rfl)

theorem level_emit (id : String) (values : List Argument) : Level (emit id values) := by
  refine Level.bind (level_of_store (fun _ => rfl)) (fun desk => ?_)
  split
  · exact level_of_store (fun _ => rfl)
  · refine (Level.mapM level_drawValue values).bind (fun scalars => ?_)
    split
    · exact level_push _
    · exact level_of_store (fun _ => rfl)

theorem level_align (items : Nat) : Level (align items) := by
  refine Level.bind (level_of_store (fun _ => rfl)) (fun desk => ?_)
  split
  · exact level_push _
  · exact level_of_store (fun _ => rfl)

theorem level_statement (statement : DataStatement) : Level statement.perform := by
  cases statement with
  | define definition => exact level_define definition
  | align items => exact level_align items
  | emit id values => exact level_emit id values
  | _ => exact level_push _

/-! ## Regions -/

theorem depth_of_enter {store after : DataStore} {region : DataRegion}
    {memory : Option MemorySection} (entered : store.enter region memory = .ok after) :
    after.depth = store.depth + 1 := by
  unfold DataStore.enter at entered
  split at entered
  · split at entered
    · rename_i outside
      cases entered
      rw [outside]
    · cases entered
      rfl
  · cases entered

theorem exists_exit {store : DataStore} {depth : Nat} (inside : store.depth = depth + 1) :
    ∃ after, store.exit = .ok after ∧ after.depth = depth := by
  unfold DataStore.exit
  rw [inside, if_neg (Nat.succ_ne_zero depth)]
  split
  · rename_i outermost
    exact ⟨_, rfl, (Nat.succ.inj outermost).symm⟩
  · exact ⟨_, rfl, Nat.add_sub_cancel depth 1⟩

/-- A region is entered, and one deeper then, or nothing is changed. -/
theorem enter_cases (region : DataRegion) (memory : Option MemorySection) (desk : DataDesk) :
    (∃ fault, enter region memory desk = (.error fault, desk)) ∨
      ∃ after, enter region memory desk = (.ok (), after) ∧
        after.store.depth = desk.store.depth + 1 := by
  rcases enter_run region memory desk with ⟨fault, _, refused⟩ | ⟨store, engine, entered, _, run⟩
  · exact .inl ⟨fault, refused⟩
  · exact .inr ⟨_, run, depth_of_enter entered⟩

/-- A region that has been entered can be left. -/
theorem exit_inside {desk : DataDesk} {depth : Nat} (inside : desk.store.depth = depth + 1) :
    ∃ after, exit desk = (.ok (), after) ∧ after.store.depth = depth := by
  obtain ⟨store, exits, above⟩ := exists_exit inside
  rcases exit_run desk with ⟨fault, refused, _⟩ | ⟨left, engine, exited, _, run⟩
  · cases exits.symm.trans refused
  · cases exits.symm.trans exited
    exact ⟨_, run, above⟩

theorem Level.nested {body : DataAction Unit} (level : Level body) (region : DataRegion) :
    Level (nested region body) := by
  intro desk
  rw [DataDesk.nested, Computation.bind_run]
  rcases enter_cases region none desk with ⟨fault, refused⟩ | ⟨inner, entered, deeper⟩
  · rw [refused]
  · rw [entered]
    have ended : (body inner).2.store.depth = desk.store.depth + 1 := (level inner).trans deeper
    obtain ⟨after, exits, above⟩ := exit_inside ended
    show ((do DataDesk.exit; ExceptT.mk (pure (body inner).1) : DataAction Unit)
      (body inner).2).2.store.depth = _
    rw [Computation.bind_run, exits]
    exact above

end DataDesk

/-- What a function of a page table does to the data, it does in the regions it was called in. -/
theorem DeskPlan.run_level {α : Type} (plan : DeskPlan α) : DataDesk.Level plan.run := by
  induction plan with
  | aside action apart => exact DataDesk.level_of_store apart
  | statement statement => exact DataDesk.level_statement statement
  | bind first next here there => exact here.bind there
  | attempt body ih => exact ih.attempt
  | region region body ih => exact ih.nested region
  | pageTableEntry prepares adapts preparator adaptor entry prepared adapted =>
      have refused : ∀ fault, DataDesk.Level (throw fault : DataAction Unit) :=
        fun fault => DataDesk.level_of_store (fun _ => rfl)
      cases entry with
      | attributes attributes =>
          cases prepares
          · exact refused _
          · exact prepared attributes
      | memory object =>
          cases adapts
          · exact refused _
          · exact adapted object

/-! ## What is restored -/

/-- What a body that has ended has given back: the memory sections and the depth of regions, and
the attribute scopes too if it was a plain one. -/
structure Session.Restored (plain : Prop) (session after : Session) : Prop where
  sections : after.sections = session.sections
  depth : after.data.depth = session.data.depth
  attributes : plain → after.attributes = session.attributes

namespace Session

variable {plain : Prop} {session middle after : Session}

theorem Restored.refl (session : Session) : Restored plain session session :=
  ⟨rfl, rfl, fun _ => rfl⟩

theorem Restored.trans (here : Restored plain session middle)
    (there : Restored plain middle after) : Restored plain session after where
  sections := there.sections.trans here.sections
  depth := there.depth.trans here.depth
  attributes holds := (there.attributes holds).trans (here.attributes holds)

theorem Restored.mono {plainer : Prop} (restored : Restored plain session after)
    (implies : plainer → plain) : Restored plainer session after :=
  ⟨restored.sections, restored.depth, fun holds => restored.attributes (implies holds)⟩

end Session

/-- The computation gives back what it has found, whether it succeeds or fails. -/
def Act.Restores (plain : Prop) {ε α : Type} (act : Act ε α) : Prop :=
  ∀ studio, Session.Restored plain studio.session (act studio).2.session

namespace Act

variable {ε α β : Type} {plain : Prop}

theorem Aloof.restores {act : Act ε α} (aloof : act.Aloof) : act.Restores plain :=
  fun studio => (aloof studio).symm ▸ .refl studio.session

theorem Restores.mono {plainer : Prop} {act : Act ε α} (restores : act.Restores plain)
    (implies : plainer → plain) : act.Restores plainer :=
  fun studio => (restores studio).mono implies

theorem Restores.bind {first : Act ε α} {next : α → Act ε β} (here : first.Restores plain)
    (there : ∀ value, (next value).Restores plain) : Restores plain (first >>= next) := by
  intro studio
  have restored := here studio
  rw [Computation.bind_run]
  rcases run : first studio with ⟨_ | value, after⟩
  · rw [run] at restored
    exact restored
  · rw [run] at restored
    exact restored.trans (there value after)

theorem Restores.attempt {body : Act ε α} (restores : body.Restores plain) :
    (attempt body).Restores plain :=
  restores

theorem Restores.locating {body : Act ε α} (restores : body.Restores plain) (location : Location) :
    (locating location body).Restores plain :=
  restores

theorem restores_data {action : DataAction α} (level : DataDesk.Level action) :
    (data action : Act ε α).Restores plain :=
  fun studio => ⟨rfl, level studio.desk, fun _ => rfl⟩

/-! ## Enclosing statements -/

section Enclosed

variable {body : Act ε Unit} (restores : body.Restores plain)

include restores

theorem Restores.withAttributes (attributes : Attributes) :
    (withAttributes attributes body).Restores plain := by
  intro studio
  have ended := restores { studio with session :=
    { studio.session with attributes := attributes :: studio.session.attributes } }
  refine ⟨ended.sections, ended.depth, fun holds => ?_⟩
  have inside := ended.attributes holds
  show List.drop (List.length _ - studio.session.attributes.length) _ = studio.session.attributes
  rw [inside, List.length_cons, Nat.add_sub_cancel_left]
  rfl

theorem Restores.inSection (memory : MemorySection) (location : Location) :
    (inSection memory location body).Restores plain := by
  intro studio
  rw [Act.inSection, Computation.bind_run]
  rcases Session.enterSection_cases memory location studio.session with
    ⟨fault, refused⟩ | ⟨outside, engine, entered⟩
  · simp only [session, refused]
    exact .refl studio.session
  · simp only [session, entered]
    have ended := restores { studio with session :=
      { studio.session with sections := [memory], engine } }
    refine ⟨?_, ended.depth, ended.attributes⟩
    have inside := ended.sections
    show List.drop (List.length _ - 0) _ = studio.session.sections
    rw [outside, Nat.sub_zero, List.drop_length]

theorem Restores.configureData (config : DataConfig) (location : Location) :
    (configureData config location body).Restores plain := by
  refine ((restores_data (DataDesk.level_beginConfig config)).locating location).bind (fun _ => ?_)
  refine restores.attempt.bind (fun outcome => ?_)
  exact (restores_data DataDesk.level_endConfig).bind (fun _ => (aloof_ofExcept _).restores)

end Enclosed

/-- One region deeper, or nothing is changed. -/
def Deeper (opening : Act ε Unit) : Prop :=
  ∀ studio : Studio ε, (∃ fault, opening studio = (.error fault, studio)) ∨
    ∃ desk, opening studio = (.ok (), studio.atDesk desk) ∧
      desk.store.depth = studio.session.data.depth + 1

theorem enter_deeper (region : DataRegion) (memory : Option MemorySection) :
    Deeper (data (DataDesk.enter region memory) : Act ε Unit) := by
  intro studio
  rw [data_run]
  rcases DataDesk.enter_cases region memory studio.desk with
    ⟨fault, refused⟩ | ⟨desk, entered, deep⟩
  · rw [refused]
    exact .inl ⟨fault, rfl⟩
  · rw [entered]
    exact .inr ⟨desk, rfl, deep⟩

theorem Deeper.locating {opening : Act ε Unit} (deeper : Deeper opening) (location : Location) :
    Deeper (locating location opening) := by
  intro studio
  rcases deeper studio with ⟨fault, refused⟩ | ⟨desk, entered, deep⟩
  · refine .inl ⟨fault.locate location, ?_⟩
    simp only [Act.locating, refused]
    rfl
  · refine .inr ⟨desk, ?_, deep⟩
    simp only [Act.locating, entered]
    rfl

/-- A region that has been entered is left at the end of its body, whatever has come of it. -/
theorem Restores.region {body : Act ε Unit} (restores : body.Restores plain)
    {opening : Act ε Unit} (deeper : Deeper opening)
    (ending : Except Fault Unit → Except Fault Unit) :
    Restores plain (do
      opening
      let outcome ← Act.attempt body
      data DataDesk.exit
      ofExcept (ending outcome)) := by
  intro studio
  rw [Computation.bind_run]
  rcases deeper studio with ⟨fault, refused⟩ | ⟨desk, entered, deep⟩
  · rw [refused]
    exact .refl studio.session
  · rw [entered]
    have ended := restores (studio.atDesk desk)
    have inside : (body (studio.atDesk desk)).2.desk.store.depth =
        studio.session.data.depth + 1 := ended.depth.trans deep
    obtain ⟨after, exits, above⟩ := DataDesk.exit_inside inside
    show Session.Restored plain studio.session ((do data DataDesk.exit; ofExcept (ending _) :
      Act ε Unit) (body (studio.atDesk desk)).2).2.session
    rw [Computation.bind_run, data_run, exits]
    exact ⟨ended.sections, above, ended.attributes⟩

theorem Restores.dataRegion {body : Act ε Unit} (restores : body.Restores plain)
    (region : DataRegion) (location : Location) :
    (dataRegion region location body).Restores plain :=
  (Aloof.restores (fun _ => rfl)).bind (fun memory =>
    restores.region ((enter_deeper region memory).locating location) _)

theorem Restores.nestedRegion {body : Act ε Unit} (restores : body.Restores plain)
    (region : DataRegion) : (nestedRegion region body).Restores plain :=
  restores.region (enter_deeper region none) id

end Act

/-! ## Plans -/

/-- No template is run in the plan. -/
def Plan.Plain {ε α : Type} : Plan ε α → Prop
  | .generate _ _ _ => False
  | .bind first next => first.Plain ∧ ∀ value, (next value).Plain
  | .attempt body => body.Plain
  | .locating _ body => body.Plain
  | .scopedBlock _ _ _ body => body.Plain
  | .withAttributes _ body => body.Plain
  | .inSection _ _ body => body.Plain
  | _ => True

section Plans

open Act

variable {ε α : Type} {plain : Prop}

/-- The deed has nothing to do with sections and data, nor, in a plain plan, with attributes. -/
def Deed.Scopeless (plain : Prop) (deed : Deed) : Prop :=
  .sections ∉ deed.touches ∧ .data ∉ deed.touches ∧ (plain → .attributes ∉ deed.touches)

theorem restores_once (deed : Deed) {action : Action α}
    (does : ∀ session, (deed.perform session).2 = (action session).2)
    (scopeless : deed.Scopeless plain) : (session action : Act ε α).Restores plain := by
  intro studio
  obtain ⟨sections, data, attributes⟩ := scopeless
  have left : (session action studio).2.session = (deed.perform studio.session).2 :=
    (does studio.session).symm
  rw [left]
  exact ⟨deed.frame studio.session sections,
    congrArg DataStore.depth (deed.frame studio.session data),
    fun holds => deed.frame studio.session (attributes holds)⟩

theorem register_restores (pre main post : Phase) :
    (session (Session.register pre main post) : Act ε Program).Restores plain := by
  intro studio
  obtain ⟨_, left⟩ := Session.register_frame pre main post studio.session
  show Session.Restored plain studio.session (Session.register pre main post studio.session).2
  rw [left]
  exact ⟨rfl, rfl, fun _ => rfl⟩

theorem remark_restores (made : Session → Remark) :
    (Chronicle.remark made : Chronicle ε Unit).act.Restores plain :=
  fun _ => ⟨rfl, rfl, fun _ => rfl⟩

/-- A phase gives back sections and regions; if it fails, the attribute scopes are gone. -/
theorem phase_restores {body : Chronicle ε Unit} (restores : body.act.Restores False)
    (kind : PhaseKind) : (body.phase kind).act.Restores False := by
  refine (remark_restores _).bind (fun _ => ?_)
  have begins : (Deed.beginPhase kind).Scopeless False := by simp [Deed.Scopeless, Deed.touches]
  refine (restores_once (.beginPhase kind) (fun _ => rfl) begins).bind (fun _ => ?_)
  refine restores.attempt.bind (fun outcome => ?_)
  have ends : (Deed.endPhase kind outcome).Scopeless False := by
    simp [Deed.Scopeless, Deed.touches]
  exact restores_once (.endPhase kind outcome) (fun _ => rfl) ends

theorem generate_restores {pre main post : Chronicle ε Unit} (first : pre.act.Restores False)
    (second : main.act.Restores False) (third : post.act.Restores False) :
    (Chronicle.generate pre main post).act.Restores False := by
  refine Restores.bind ?_ (fun program => ?_)
  · refine (remark_restores _).bind (fun _ => ?_)
    refine (phase_restores first .pre).bind (fun _ => ?_)
    refine (phase_restores second .main).bind (fun _ => ?_)
    refine (phase_restores third .post).bind (fun _ => ?_)
    exact register_restores _ _ _
  · have links : (Deed.link program).Scopeless False := by simp [Deed.Scopeless, Deed.touches]
    exact restores_once (.link program) (fun _ => rfl) links

theorem RegionPlan.restores (plan : RegionPlan ε α) : plan.run.Restores plain := by
  induction plan with
  | aloof act apart => exact apart.restores
  | desk plan => exact restores_data plan.run_level
  | bind first next here there => exact here.bind there
  | attempt body ih => exact ih.attempt
  | locating location body ih => exact ih.locating location
  | region region body ih => exact ih.nestedRegion region

/-- **What a plan gives back.**  Whether it succeeds or fails, and whatever in it has failed and
been recovered from, a plan leaves the memory sections and the depth of regions as it has found
them; and if it runs no template, the attribute scopes too. -/
theorem Plan.restores (plan : Plan ε α) : plan.run.Restores plan.Plain := by
  have scopeless : ∀ {deed : Deed} {plain : Prop}, deed.touches = [.blocks] →
      deed.Scopeless plain := by
    intro deed plain touched
    simp [Deed.Scopeless, touched]
  induction plan with
  | aloof act apart => exact apart.restores
  | bind first next here there =>
      exact (here.mono And.left).bind (fun value => (there value).mono (fun plain => plain.2 value))
  | attempt body ih => exact ih.attempt
  | locating location body ih => exact ih.locating location
  | scopedBlock kind options location body ih =>
      refine Restores.bind (restores_once (.openBlock kind options (some location)) (fun _ => rfl)
        (scopeless rfl)) (fun handle => ?_)
      refine ih.attempt.bind (fun outcome => ?_)
      exact restores_once (.leaveBlock handle location outcome) (fun _ => rfl) (scopeless rfl)
  | withAttributes attributes body ih => exact ih.withAttributes attributes
  | inSection memory location body ih => exact ih.inSection memory location
  | configureData config location body => exact body.restores.configureData config location
  | dataRegion region location body => exact body.restores.dataRegion region location
  | generate pre main post first second third =>
      exact generate_restores (first.mono False.elim) (second.mono False.elim)
        (third.mono False.elim)
  | aside action apart =>
      exact restores_once (.aside _ apart) (fun _ => rfl) (by simp [Deed.Scopeless, Deed.touches])
  | openBlock kind options location =>
      exact restores_once (.openBlock kind options location) (fun _ => rfl) (scopeless rfl)
  | closeBlock handle => exact restores_once (.closeBlock handle) (fun _ => rfl) (scopeless rfl)
  | addCall call location =>
      exact restores_once (.addCall call location) (fun _ => rfl) (scopeless rfl)
  | declare declaration location =>
      exact restores_once (.declare declaration location) (fun _ => rfl) (scopeless rfl)
  | write output location =>
      exact restores_once (.write output location) (fun _ => rfl) (scopeless rfl)

end Plans

/-! ## Sections -/

/-- No deed opens a memory section inside another. -/
theorem Deed.one_section (deed : Deed) {session : Session} (one : session.sections.length ≤ 1) :
    (deed.perform session).2.sections.length ≤ 1 := by
  have apart : Component.sections ∉ deed.touches →
      (deed.perform session).2.sections.length ≤ 1 := by
    intro untouched
    have same : (deed.perform session).2.sections = session.sections :=
      deed.frame session untouched
    rw [same]
    exact one
  cases deed with
  | enterSection memory location =>
      show (Session.enterSection memory location session).2.sections.length ≤ 1
      rcases Session.enterSection_cases memory location session with
        ⟨fault, refused⟩ | ⟨outside, engine, entered⟩
      · rw [refused]
        exact one
      · rw [entered]
        exact Nat.le_refl 1
  | leaveSection depth =>
      show (session.sections.drop (session.sections.length - depth)).length ≤ 1
      exact Nat.le_trans (List.drop_sublist _ _).length_le one
  | _ => exact apart (by simp [touches])

theorem Session.through_one_section {session : Session} (deeds : List Deed)
    (one : session.sections.length ≤ 1) : (session.through deeds).sections.length ≤ 1 := by
  induction deeds generalizing session with
  | nil => exact one
  | cons deed rest ih => exact ih (deed.one_section one)

/-! ## Scopes -/

/-- **Scopes never leak.**  Around the body of any plan, whether it ends well or not, an attribute
scope leaves the attribute scopes as it has found them (unless a template is run inside), a memory
section the sections, and a region, outer or nested, the depth of regions, in the functions of a
page table too.  And at every moment of a run at most one section is open. -/
theorem scopes_never_leak {ε : Type} (body : Plan ε Unit) (inner : RegionPlan ε Unit)
    (entry : DeskPlan Unit) (studio : Studio ε) :
    (body.Plain → ∀ attributes,
      (Act.withAttributes attributes body.run studio).2.session.attributes =
        studio.session.attributes) ∧
    (∀ memory location,
      (Act.inSection memory location body.run studio).2.session.sections =
        studio.session.sections) ∧
    (∀ region location,
      (Act.dataRegion region location inner.run studio).2.session.data.depth =
        studio.session.data.depth) ∧
    (∀ region, (Act.nestedRegion region inner.run studio).2.session.data.depth =
      studio.session.data.depth) ∧
    (∀ region desk, (DataDesk.nested region entry.run desk).2.store.depth = desk.store.depth) ∧
    ∀ settings memory earlier, earlier <+: body.deeds ⟨Session.new settings, memory⟩ →
      ((Session.new settings).through earlier).sections.length ≤ 1 := by
  refine ⟨fun plain attributes => ?_, fun memory location => ?_, fun region location => ?_,
    fun region => ?_, fun region desk => ?_, fun settings memory earlier _ => ?_⟩
  · exact (body.restores.withAttributes attributes studio).attributes plain
  · exact (body.restores.inSection memory location studio).sections
  · have restores : inner.run.Restores True := inner.restores
    exact (restores.dataRegion region location studio).depth
  · have restores : inner.run.Restores True := inner.restores
    exact (restores.nestedRegion region studio).depth
  · exact entry.run_level.nested region desk
  · exact Session.through_one_section earlier (Nat.zero_le 1)

/-- A body that fails in an attribute scope in a section, goes on, and fails in the end. -/
def failingTwice : Plan Unit Unit :=
  .bind (.attempt (.inSection ⟨.named "first", 0, 0, none⟩ (.caller "scopes" 1 1)
      (.withAttributes Flag.executed.attributes
        (.aloof (throw (Fault.of .unnamedSection)) (fun _ => rfl)))))
    fun _ => .aloof (throw (Fault.of .unnamedSection)) (fun _ => rfl)

theorem scopes_never_leak_failing :
    failingTwice.Plain ∧
      (failingTwice.run ⟨Session.new {}, ()⟩).1.isOk = false ∧
      (Act.withAttributes Flag.branches.attributes failingTwice.run
        ⟨Session.new {}, ()⟩).2.session.attributes = [] := by
  have plain : failingTwice.Plain := ⟨trivial, fun _ => trivial⟩
  have holds := scopes_never_leak failingTwice (.desk (.statement (.text "")))
    (.statement (.text "")) ⟨Session.new {}, ()⟩
  exact ⟨plain, rfl, holds.1 plain Flag.branches.attributes⟩

end TestProgram
