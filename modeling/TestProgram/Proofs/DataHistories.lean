/-
# TestProgram.Proofs.DataHistories -- the books of the data store

The store counts the regions that it is inside of and the sections that it has opened and closed.
It counts by what it meets, without looking back; here the counts are compared with the whole
history of what has been done to it.  `DataOperation.Effect` says once what each operation can do
to the store, and an operation that fails does nothing (`DataOperation.step`).  From that the
books are shown to balance after each step (`DataStore.Balanced.step`), and so after any history,
whatever was refused in it.

Definitions are stored under their names, and the history tells which one is found there: under
the policy that rejects a second definition it is the first that was made, under the one that
lets it shadow the first it is the last.
-/
import TestProgram.Proofs.Directives

namespace TestProgram

set_option autoImplicit false

open TestProgram.Computation

/-! ## Operations -/

/-- What can be done to the data of a session.  The definitions of a configuration are statements
here as those of a region are. -/
inductive DataOperation
  | beginConfig (config : DataConfig)
  | endConfig
  | enter (region : DataRegion) (memory : Option MemorySection)
  | exit
  | statement (statement : DataStatement)
  | takeSections

namespace DataOperation

/-- The operation, with the sections that it hands over. -/
def perform : DataOperation → DataAction (List DataSection)
  | .beginConfig config => do DataDesk.beginConfig config; pure []
  | .endConfig => do DataDesk.endConfig; pure []
  | .enter region memory => do DataDesk.enter region memory; pure []
  | .exit => do DataDesk.exit; pure []
  | .statement made => do made.perform; pure []
  | .takeSections => DataDesk.takeSections

/-- What an operation does to the store when it succeeds. -/
inductive Effect (store : DataStore) :
    DataOperation → List DataSection → DataStore → Prop
  | begins {config : DataConfig} (fresh : store.state = .unconfigured) :
      Effect store (.beginConfig config) []
        { store with state := .configuring, config := some config }
  | ends (begun : store.state = .configuring) :
      Effect store .endConfig [] { store with state := .configured }
  | idles (ended : store.state ≠ .configuring) : Effect store .endConfig [] store
  | defines {definition : DataDefinition}
      (allowed : store.redefinition = .reject → store.definition? definition.id = none) :
      Effect store (.statement (.define definition)) []
        { store with definitions := store.definitions.insert definition.id definition }
  | opens {region : DataRegion} {memory : Option MemorySection} {config : DataConfig}
      (configured : store.state = .configured) (told : store.config = some config)
      (outside : store.depth = 0) :
      Effect store (.enter region memory) []
        { store with
          depth := 1
          current := some { target := config.target, isGlobal := region.isGlobal,
                            inSeparateFile := region.inSeparateFile, memory }
          opened := store.opened + 1 }
  | deepens {region : DataRegion} {memory : Option MemorySection}
      (configured : store.state = .configured) (inside : 0 < store.depth) :
      Effect store (.enter region memory) [] { store with depth := store.depth + 1 }
  | closes (last : store.depth = 1) :
      Effect store .exit []
        { store with
          depth := 0
          current := none
          sections := store.sections ++ store.current.toList
          closed := store.closed + 1 }
  | leaves (deep : 1 < store.depth) :
      Effect store .exit [] { store with depth := store.depth - 1 }
  | writes {statement : DataStatement} {draft : DataAction DataDirective} {region : DataSection}
      (drafts : statement.draft? = some draft) (directive : DataDirective)
      (inside : store.current = some region) :
      Effect store (.statement statement) []
        { store with
          current := some { region with directives := region.directives ++ [directive] } }
  | takes : Effect store .takeSections store.sections { store with sections := [] }

section Effects

variable {store after : DataStore}

theorem effect_beginConfig {config : DataConfig} (began : store.beginConfig config = .ok after) :
    Effect store (.beginConfig config) [] after := by
  unfold DataStore.beginConfig at began
  split at began
  · rename_i fresh
    cases began
    exact .begins fresh
  · cases began

theorem effect_endConfig : Effect store .endConfig [] store.endConfig := by
  unfold DataStore.endConfig
  split
  · rename_i begun
    exact .ends begun
  · rename_i ended
    exact .idles ended

theorem effect_define {definition : DataDefinition} (defined : store.define definition = .ok after) :
    Effect store (.statement (.define definition)) [] after := by
  unfold DataStore.define at defined
  split at defined
  · cases defined
  · rename_i allowed
    cases defined
    refine .defines (fun rejecting => ?_)
    cases found : store.definition? definition.id with
    | none => rfl
    | some earlier => exact (allowed earlier found rejecting).elim

theorem effect_enter {region : DataRegion} {memory : Option MemorySection}
    (entered : store.enter region memory = .ok after) :
    Effect store (.enter region memory) [] after := by
  unfold DataStore.enter at entered
  split at entered
  · rename_i config configured told
    split at entered
    · rename_i outside
      cases entered
      exact .opens configured told outside
    · rename_i inside
      cases entered
      exact .deepens configured (Nat.pos_of_ne_zero inside)
  · cases entered

theorem effect_exit (exited : store.exit = .ok after) : Effect store .exit [] after := by
  unfold DataStore.exit at exited
  split at exited
  · cases exited
  · split at exited
    · rename_i last
      cases exited
      exact .closes last
    · cases exited
      exact .leaves (by omega)

end Effects

/-- How an operation can end: with its effect, or refused. -/
inductive Step (store : DataStore) (operation : DataOperation) :
    Except Fault (List DataSection) → DataStore → Prop
  | ok {taken : List DataSection} {after : DataStore} (effect : Effect store operation taken after) :
      Step store operation (.ok taken) after
  | error (fault : Fault) : Step store operation (.error fault) store

namespace Step

variable {store after : DataStore} {operation : DataOperation}
  {outcome : Except Fault (List DataSection)}

theorem effect_of_ok {taken : List DataSection} (step : Step store operation (.ok taken) after) :
    Effect store operation taken after := by
  cases step with
  | ok effect => exact effect

theorem store_of_error {fault : Fault} (step : Step store operation (.error fault) after) :
    after = store := by
  cases step
  rfl

end Step

section Steps

variable {operation : DataOperation} {desk : DataDesk}

/-- An operation that hands nothing over, told by its action. -/
theorem step_handing_nothing {action : DataAction Unit}
    (outcome : (∃ fault after, action desk = (.error fault, after) ∧ after.store = desk.store) ∨
      ∃ after, action desk = (.ok (), after) ∧ Effect desk.store operation [] after.store) :
    Step desk.store operation ((do action; pure [] : DataAction (List DataSection)) desk).1
      ((do action; pure [] : DataAction (List DataSection)) desk).2.store := by
  rw [bind_run]
  rcases outcome with ⟨fault, after, run, same⟩ | ⟨after, run, effect⟩
  · rw [run]
    simp only [same]
    exact .error fault
  · rw [run]
    exact .ok effect

/-- An operation that only changes the store and remarks on it. -/
theorem step_update {action : DataAction Unit} {changed : Except Fault DataStore}
    (run : (∃ fault, changed = .error fault ∧ action desk = (.error fault, desk)) ∨
      ∃ store engine, changed = .ok store ∧ Engine.Alike engine desk.engine ∧
        action desk = (.ok (), ⟨store, engine⟩))
    (effect : ∀ {after}, changed = .ok after → Effect desk.store operation [] after) :
    Step desk.store operation ((do action; pure [] : DataAction (List DataSection)) desk).1
      ((do action; pure [] : DataAction (List DataSection)) desk).2.store := by
  refine step_handing_nothing ?_
  rcases run with ⟨fault, _, run⟩ | ⟨store, engine, succeeded, _, run⟩
  · exact .inl ⟨fault, desk, run, rfl⟩
  · exact .inr ⟨_, run, effect succeeded⟩

theorem step_statement {statement : DataStatement} {draft : DataAction DataDirective}
    (drafts : statement.draft? = some draft) :
    Step desk.store (.statement statement) ((perform (.statement statement)) desk).1
      ((perform (.statement statement)) desk).2.store := by
  have same := DataStatement.aside_draft drafts desk
  refine step_handing_nothing ?_
  rw [DataStatement.perform_draft drafts, bind_run]
  rcases run : draft desk with ⟨fault | directive, middle⟩
  · rw [run] at same
    exact .inl ⟨fault, middle, rfl, same⟩
  · replace same : middle.store = desk.store := by rw [run] at same; exact same
    cases inside : desk.store.current with
    | none => exact .inl ⟨_, middle, DataDesk.push_outside (same ▸ inside) directive, same⟩
    | some region =>
        refine .inr ⟨_, DataDesk.push_inside (same ▸ inside) directive, ?_⟩
        simp only [same]
        exact .writes drafts directive inside

end Steps

/-- **An operation has its effect or none.**  Whatever is done to the data of a session, it
succeeds with one of the effects of its kind, or fails and leaves the store as it was. -/
theorem step (operation : DataOperation) (desk : DataDesk) :
    Step desk.store operation (operation.perform desk).1 (operation.perform desk).2.store := by
  cases operation with
  | beginConfig config =>
      exact step_update (DataDesk.update_run (.inr ⟨_, rfl⟩) desk) effect_beginConfig
  | endConfig => exact step_handing_nothing (.inr ⟨_, rfl, effect_endConfig⟩)
  | enter region memory => exact step_update (DataDesk.enter_run region memory desk) effect_enter
  | exit => exact step_update (DataDesk.exit_run desk) effect_exit
  | statement made =>
      cases drafts : made.draft? with
      | some draft => exact step_statement drafts
      | none =>
          obtain ⟨definition, rfl⟩ := DataStatement.eq_define drafts
          exact step_update (DataDesk.define_run definition desk) effect_define
  | takeSections => exact .ok .takes

/-! ## What is counted -/

def isEnter : DataOperation → Bool
  | .enter _ _ => true
  | _ => false

def isExit : DataOperation → Bool
  | .exit => true
  | _ => false

def isBeginConfig : DataOperation → Bool
  | .beginConfig _ => true
  | _ => false

/-- What the operation defines under a name. -/
def defined? (id : String) : DataOperation → Option DataDefinition
  | .statement (.define definition) => if definition.id = id then some definition else none
  | _ => none

end DataOperation

/-- The operations that have succeeded, in their order, each with what it handed over. -/
abbrev DataHistory := List (DataOperation × List DataSection)

namespace DataHistory

def enters (history : DataHistory) : Nat :=
  history.countP (fun entry => entry.1.isEnter)

def exits (history : DataHistory) : Nat :=
  history.countP (fun entry => entry.1.isExit)

def configurations (history : DataHistory) : Nat :=
  history.countP (fun entry => entry.1.isBeginConfig)

/-- The sections that were handed over. -/
def taken (history : DataHistory) : List DataSection :=
  history.flatMap (fun entry => entry.2)

/-- What was defined under a name. -/
def definitions (history : DataHistory) (id : String) : List DataDefinition :=
  history.filterMap (fun entry => entry.1.defined? id)

/-- What a policy makes of the definitions of a name: the first of them stays, or the last one
has taken its place. -/
def definition? (history : DataHistory) (id : String) : Redefinition → Option DataDefinition
  | .reject => (history.definitions id).head?
  | .shadow => (history.definitions id).getLast?

end DataHistory

/-- How the configuration of the data goes on. -/
inductive DataState.Moves : DataState → DataState → Prop
  | stays (state : DataState) : Moves state state
  | begins : Moves .unconfigured .configuring
  | ends : Moves .configuring .configured

/-- The books of a store balance with its history, and what it finds under a name is what its
policy makes of the definitions in that history. -/
structure DataStore.Balanced (redefinition : Redefinition) (history : DataHistory)
    (store : DataStore) : Prop where
  policy : store.redefinition = redefinition
  depth : store.depth + history.exits = history.enters
  current : store.current.isSome = true ↔ 0 < store.depth
  opened : store.opened = store.closed + if 0 < store.depth then 1 else 0
  closed : store.sections.length + history.taken.length = store.closed
  configured : 0 < store.depth → store.state = .configured
  begun : history.configurations = if store.state = .unconfigured then 0 else 1
  definition : ∀ id, store.definition? id = history.definition? id redefinition

namespace DataOperation.Effect

variable {store after : DataStore} {operation : DataOperation} {taken : List DataSection}

theorem depth (effect : Effect store operation taken after) :
    after.depth + (if operation.isExit then 1 else 0) =
      store.depth + (if operation.isEnter then 1 else 0) := by
  cases effect <;> simp [isEnter, isExit] <;> omega

theorem current (effect : Effect store operation taken after)
    (sound : store.current.isSome = true ↔ 0 < store.depth) :
    after.current.isSome = true ↔ 0 < after.depth := by
  cases effect with
  | opens | closes => simp
  | deepens configured inside => simp [sound, inside]
  | leaves deep => simp [sound]; omega
  | writes drafts directive inside => simp [← sound, inside]
  | _ => exact sound

theorem opened (effect : Effect store operation taken after)
    (sound : store.opened = store.closed + if 0 < store.depth then 1 else 0) :
    after.opened = after.closed + if 0 < after.depth then 1 else 0 := by
  cases effect with
  | opens configured told outside => simpa [outside] using sound
  | closes last => simpa [last] using sound
  | deepens configured inside => simpa [inside] using sound
  | leaves deep =>
      have outer : 0 < store.depth := by omega
      have inner : 0 < store.depth - 1 := by omega
      simpa only [outer, inner, if_true] using sound
  | _ => exact sound

/-- A section that is closed is finished. -/
theorem closed (effect : Effect store operation taken after)
    (sound : store.current.isSome = true ↔ 0 < store.depth) :
    after.sections.length + taken.length + store.closed =
      store.sections.length + after.closed := by
  cases effect with
  | closes last =>
      obtain ⟨region, inside⟩ := Option.isSome_iff_exists.mp (sound.mpr (by omega))
      simp [inside]
      omega
  | takes => simp
  | _ => simp

theorem moves (effect : Effect store operation taken after) :
    DataState.Moves store.state after.state := by
  cases effect with
  | begins fresh => rw [fresh]; exact .begins
  | ends begun => rw [begun]; exact .ends
  | _ => exact .stays store.state

theorem configured (effect : Effect store operation taken after)
    (sound : 0 < store.depth → store.state = .configured) (inside : 0 < after.depth) :
    after.state = .configured := by
  cases effect with
  | begins fresh => simpa [fresh] using sound inside
  | ends => rfl
  | opens configured | deepens configured => exact configured
  | leaves deep => exact sound (by omega)
  | closes => cases inside
  | _ => exact sound inside

/-- The configuration is begun by the one operation that finds it not begun. -/
theorem begun (effect : Effect store operation taken after) :
    (if after.state = .unconfigured then 0 else 1) =
      (if store.state = .unconfigured then 0 else 1) + if operation.isBeginConfig then 1 else 0 := by
  cases effect with
  | begins fresh => simp [fresh, isBeginConfig]
  | ends begun => simp [begun, isBeginConfig]
  | _ => simp [isBeginConfig]

theorem redefinition (effect : Effect store operation taken after) :
    after.redefinition = store.redefinition := by
  cases effect <;> rfl

theorem definition (effect : Effect store operation taken after) (id : String) :
    after.definition? id = (operation.defined? id).or (store.definition? id) := by
  cases effect with
  | @defines definition =>
      simp only [DataStore.definition?, defined?]
      split
      · rename_i same
        rw [← same, KeyMap.find?_insert_self, Option.some_or]
      · rename_i different
        rw [KeyMap.find?_insert_of_ne _ _ (Ne.symm different), Option.none_or]
  | @writes statement draft region drafts =>
      cases statement <;> first | rfl | cases drafts
  | _ => rfl

/-- Under the policy that rejects a second definition of a name there is no earlier one. -/
theorem definition_first (effect : Effect store operation taken after)
    (rejecting : store.redefinition = .reject) {id : String} {definition : DataDefinition}
    (defines : operation.defined? id = some definition) : store.definition? id = none := by
  cases effect with
  | defines allowed =>
      simp only [defined?] at defines
      split at defines
      · rename_i same
        rw [← same]
        exact allowed rejecting
      · cases defines
  | @writes statement draft region drafts =>
      cases statement with
      | define => cases drafts
      | _ => cases defines
  | _ => cases defines

end DataOperation.Effect

theorem DataOperation.Step.moves {store after : DataStore} {operation : DataOperation}
    {outcome : Except Fault (List DataSection)} (step : Step store operation outcome after) :
    DataState.Moves store.state after.state := by
  cases step with
  | ok effect => exact effect.moves
  | error => exact .stays store.state

/-! ## Balance -/

namespace DataStore.Balanced

variable {redefinition : Redefinition} {store after : DataStore} {history : DataHistory}
  {operation : DataOperation} {taken : List DataSection}

theorem fresh (redefinition : Redefinition) : Balanced redefinition [] { redefinition } where
  policy := rfl
  depth := rfl
  current := by simp
  opened := rfl
  closed := rfl
  configured := by simp
  begun := rfl
  definition id := by cases redefinition <;> rfl

/-- The books still balance when an operation has had its effect. -/
theorem step (balanced : Balanced redefinition history store)
    (effect : DataOperation.Effect store operation taken after) :
    Balanced redefinition (history ++ [(operation, taken)]) after where
  policy := effect.redefinition.trans balanced.policy
  depth := by
    have before := balanced.depth
    have here := effect.depth
    simp only [DataHistory.exits, DataHistory.enters, List.countP_append, List.countP_singleton]
      at before ⊢
    omega
  current := effect.current balanced.current
  opened := effect.opened balanced.opened
  closed := by
    have before := balanced.closed
    have here := effect.closed balanced.current
    simp only [DataHistory.taken, List.flatMap_append, List.length_append,
      List.flatMap_singleton] at before ⊢
    omega
  configured := effect.configured balanced.configured
  begun := by
    rw [effect.begun, ← balanced.begun]
    simp only [DataHistory.configurations, List.countP_append, List.countP_singleton]
  definition id := by
    have before := balanced.definition id
    have grown : DataHistory.definitions (history ++ [(operation, taken)]) id =
        history.definitions id ++ (operation.defined? id).toList := by
      simp only [DataHistory.definitions, List.filterMap_append]
      cases defines : operation.defined? id <;> simp [defines]
    rw [effect.definition]
    cases defines : operation.defined? id with
    | none => cases redefinition <;> simpa [DataHistory.definition?, grown, defines] using before
    | some definition =>
        cases redefinition with
        | shadow => simp [DataHistory.definition?, grown, defines]
        | reject =>
            rw [effect.definition_first balanced.policy defines] at before
            have none_yet : history.definitions id = [] := List.head?_eq_none_iff.mp before.symm
            simp [DataHistory.definition?, grown, defines, none_yet]

end DataStore.Balanced

/-! ## Runs -/

namespace DataDesk

/-- A desk at which nothing has been done yet. -/
def fresh (redefinition : Redefinition) (engine : Engine) : DataDesk where
  store := { redefinition }
  engine

/-- The desk after some operations, each done whether the others succeed or not. -/
def after (desk : DataDesk) (operations : List DataOperation) : DataDesk :=
  operations.foldl (fun desk operation => (operation.perform desk).2) desk

/-- The operations among these that succeed. -/
def history (desk : DataDesk) : List DataOperation → DataHistory
  | [] => []
  | operation :: rest =>
      match operation.perform desk with
      | (.ok taken, after) => (operation, taken) :: history after rest
      | (.error _, after) => history after rest

/-- The books balance after a run that starts where they balance. -/
theorem balanced_after {redefinition : Redefinition} {desk : DataDesk} {done : DataHistory}
    (balanced : DataStore.Balanced redefinition done desk.store)
    (operations : List DataOperation) :
    DataStore.Balanced redefinition (done ++ desk.history operations)
      (desk.after operations).store := by
  induction operations generalizing desk done with
  | nil => simpa [history, after] using balanced
  | cons operation rest ih =>
      have step := operation.step desk
      simp only [history, after, List.foldl_cons]
      rcases run : operation.perform desk with ⟨fault | taken, last⟩
      · rw [run] at step
        exact ih (step.store_of_error ▸ balanced)
      · rw [run] at step
        have reached := ih (balanced.step step.effect_of_ok)
        rwa [List.append_assoc] at reached

/-- Under the policy that rejects a second definition the first one stays, whatever is done. -/
theorem definition_stays {done : DataHistory} {desk : DataDesk}
    (balanced : DataStore.Balanced .reject done desk.store) {id : String}
    {definition : DataDefinition} (found : desk.store.definition? id = some definition)
    (later : List DataOperation) :
    (desk.after later).store.definition? id = some definition := by
  have here := balanced.definition id
  have there := (balanced_after balanced later).definition id
  rw [found] at here
  simp only [DataHistory.definition?, DataHistory.definitions, List.filterMap_append,
    List.head?_append] at there here
  rw [there, ← here, Option.some_or]

/-- **The books of the data balance.**  Whatever is done to fresh data, in any order and however
often it is refused: after it the depth is what was entered and not left, a section is open just
when the depth is not null, the sections opened, closed, finished and handed over agree, a region
is only ever entered in configured data, and the configuration was begun at most once.  From there
the configuration only goes forward, an operation that fails changes nothing, and a name stays
defined as it was first, or becomes what it was defined as last, as the policy has it. -/
theorem books_balance (redefinition : Redefinition) (engine : Engine)
    (operations : List DataOperation) :
    let desk := (fresh redefinition engine).after operations
    let done := (fresh redefinition engine).history operations
    DataStore.Balanced redefinition done desk.store ∧
      done.configurations ≤ 1 ∧
      (∀ operation : DataOperation,
        DataState.Moves desk.store.state (operation.perform desk).2.store.state) ∧
      (∀ (operation : DataOperation) (fault : Fault),
        (operation.perform desk).1 = .error fault →
          (operation.perform desk).2.store = desk.store) ∧
      (redefinition = .reject → ∀ (id : String) (definition : DataDefinition),
        desk.store.definition? id = some definition → ∀ later : List DataOperation,
          (desk.after later).store.definition? id = some definition) := by
  intro desk done
  have balanced : DataStore.Balanced redefinition done desk.store := by
    have start : DataStore.Balanced redefinition [] (fresh redefinition engine).store :=
      .fresh redefinition
    exact balanced_after start operations
  refine ⟨balanced, ?_, fun operation => (operation.step desk).moves, ?_, ?_⟩
  · rw [balanced.begun]
    split <;> omega
  · intro operation fault refused
    have step := operation.step desk
    rw [refused] at step
    exact step.store_of_error
  · rintro rfl id definition found later
    exact definition_stays balanced found later

end DataDesk
end TestProgram
