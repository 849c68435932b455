/-
# TestProgram.Proofs.Unlined -- what was not written in lines of a program

A location is a line of a program that builds a template, or a stretch of a file.  `Unlined` says
of a place that it is no such line, and of a tree, of a session and of a studio that no block and
no call in it was written in one.

What holds of a state and is kept by a computation is kept by one that is put together of such
computations (`Keeps`, with one rule for each way of putting them together).  Each statement of a
session keeps that nothing in it was written in lines of a program if it was not written in one
itself, and so do the beginning and the end of a phase.
-/
import TestProgram.Proofs.Deeds
import TestProgram.Proofs.PhaseRuns
import TestProgram.Proofs.Places

namespace TestProgram

set_option autoImplicit false

open TestProgram.Computation

/-! ## Places -/

/-- The place is not a line of a program. -/
def Unlined (location : Option Location) : Prop :=
  ∀ file line column, location ≠ some (.caller file line column)

theorem unlined_none : Unlined none := by
  intro file line column
  simp

theorem unlined_span (file start stop : Nat) : Unlined (some (.span file start stop)) := by
  intro file line column
  simp

/-- The tree, its blocks and its calls, was not written in lines of a program. -/
inductive Tree.Unlined : Tree Call → Prop
  | leaf {call : Call} (place : TestProgram.Unlined call.location) : Tree.Unlined (.leaf call)
  | block {info : BlockInfo} {children : List (Tree Call)}
      (place : TestProgram.Unlined info.location) (each : ∀ child ∈ children, Tree.Unlined child) :
      Tree.Unlined (.block info children)

theorem Tree.Unlined.calls {tree : Tree Call} (unlined : tree.Unlined) :
    ∀ call ∈ tree.calls, TestProgram.Unlined call.location := by
  induction unlined with
  | @leaf call place =>
      intro other member
      rw [Tree.calls, List.mem_singleton] at member
      exact member ▸ place
  | @block info children _ _ ih =>
      intro call member
      rw [Tree.calls] at member
      obtain ⟨_, child, found, called⟩ := Tree.mem_callsOf member
      exact ih child (List.mem_of_getElem? found) call called

/-! ## Keeping what holds of a state -/

namespace Computation

variable {σ α β : Type} {I : σ → Prop}

/-- What holds of the state holds of it afterwards, whatever comes of the computation. -/
def Keeps (I : σ → Prop) (body : ExceptT Fault (StateM σ) α) : Prop :=
  ∀ state, I state → I (body state).2

theorem Keeps.after {body : ExceptT Fault (StateM σ) α} (keeps : Keeps I body) {state last : σ}
    (holds : I state) {outcome : Except Fault α} (run : body state = (outcome, last)) : I last := by
  have kept := keeps state holds
  rwa [run] at kept

theorem Keeps.bind {first : ExceptT Fault (StateM σ) α}
    {next : α → ExceptT Fault (StateM σ) β} (here : Keeps I first)
    (there : ∀ value, Keeps I (next value)) : Keeps I (first >>= next) := by
  intro state holds
  rw [bind_run]
  rcases run : first state with ⟨fault | value, after⟩
  · exact here.after holds run
  · exact there value after (here.after holds run)

theorem keeps_pure (value : α) : Keeps I (pure value : ExceptT Fault (StateM σ) α) :=
  fun _ holds => holds

theorem keeps_get : Keeps I (get : ExceptT Fault (StateM σ) σ) :=
  fun _ holds => holds

theorem keeps_throw (fault : Fault) : Keeps I (throw fault : ExceptT Fault (StateM σ) α) :=
  fun _ holds => holds

/-- What would come after a fault makes no difference. -/
theorem keeps_throw_bind (fault : Fault) (next : α → ExceptT Fault (StateM σ) β) :
    Keeps I ((throw fault : ExceptT Fault (StateM σ) α) >>= next) :=
  fun _ holds => holds

theorem Keeps.mapM {step : α → ExceptT Fault (StateM σ) β} (each : ∀ item, Keeps I (step item)) :
    ∀ items : List α, Keeps I (items.mapM step)
  | [] => by
      rw [List.mapM_nil]
      exact keeps_pure _
  | item :: rest => by
      rw [List.mapM_cons]
      exact (each item).bind (fun _ => (Keeps.mapM each rest).bind (fun _ => keeps_pure _))

theorem Keeps.optionMapM {step : α → ExceptT Fault (StateM σ) β}
    (each : ∀ item, Keeps I (step item)) : ∀ item : Option α, Keeps I (item.mapM step)
  | none => keeps_pure none
  | some item => (each item).bind (fun _ => keeps_pure _)

theorem Keeps.forM {step : α → ExceptT Fault (StateM σ) PUnit}
    (each : ∀ item, Keeps I (step item)) : ∀ items : List α, Keeps I (items.forM step)
  | [] => keeps_pure ()
  | item :: rest => (each item).bind (fun _ => Keeps.forM each rest)

end Computation

/-! ## Sessions -/

/-- Nothing in the session was written in a line of a program, and no strategies were registered. -/
structure Session.Unlined (session : Session) : Prop where
  registry : session.registry = Strategy.builtins
  blocks : ∀ block ∈ session.blocks,
    TestProgram.Unlined block.location ∧ ∀ child ∈ block.children, child.Unlined
  completed : ∀ block, session.completed = some block → block.toTree.Unlined

namespace Action

variable {α : Type}

/-- Nothing is done to the blocks or the strategies. -/
def Apart (action : Action α) : Prop :=
  ∀ session, (action session).2.registry = session.registry ∧
    (action session).2.blocks = session.blocks ∧ (action session).2.completed = session.completed

theorem apart_remark (made : Remark) : Apart (remark made) :=
  fun _ => ⟨rfl, rfl, rfl⟩

theorem Apart.keeps {action : Action α} (apart : Apart action) : Keeps Session.Unlined action := by
  intro session unlined
  obtain ⟨registry, blocks, completed⟩ := apart session
  refine ⟨registry.trans unlined.registry, ?_, ?_⟩
  · rw [blocks]
    exact unlined.blocks
  · rw [completed]
    exact unlined.completed

end Action

namespace Session

open TestProgram.Action

/-- The statement hangs something into the innermost block at most. -/
theorem keeps_inBlock (what : String) {change : OpenBlock → OpenBlock}
    (place : ∀ block, (change block).location = block.location)
    (hung : ∀ block, (change block).children = block.children ∨ ∃ call : Call,
      TestProgram.Unlined call.location ∧
        (change block).children = block.children ++ [.leaf call]) :
    Keeps Session.Unlined (inBlock what change) := by
  intro session unlined
  cases stack : session.blocks with
  | nil =>
      rw [inBlock, stack]
      exact unlined
  | cons top outer =>
      have opened := unlined.blocks
      rw [stack] at opened
      rw [inBlock, stack]
      refine ⟨unlined.registry, ?_, unlined.completed⟩
      intro block member
      rcases List.mem_cons.mp member with rfl | below
      · obtain ⟨placed, each⟩ := opened top List.mem_cons_self
        refine ⟨place top ▸ placed, ?_⟩
        rcases hung top with same | ⟨call, written, more⟩
        · exact same ▸ each
        · rw [more]
          intro child listed
          rcases List.mem_append.mp listed with earlier | last
          · exact each child earlier
          · exact List.mem_singleton.mp last ▸ .leaf written
      · exact opened block (List.mem_cons_of_mem _ below)

theorem keeps_openBlock (kind : BlockKind) (options : BlockOptions) {location : Option Location}
    (place : TestProgram.Unlined location) :
    Keeps Session.Unlined (openBlock kind options location) := by
  intro session unlined
  have fresh : ∀ block : OpenBlock, block.location = location → block.children = [] →
      TestProgram.Unlined block.location ∧ ∀ child ∈ block.children, child.Unlined := by
    intro block placed empty
    rw [placed, empty]
    exact ⟨place, by simp⟩
  unfold openBlock
  cases stack : session.blocks with
  | cons parent outer =>
      refine ⟨unlined.registry, ?_, unlined.completed⟩
      have opened := unlined.blocks
      rw [stack] at opened
      intro block member
      rcases List.mem_cons.mp member with rfl | around
      · exact fresh _ rfl rfl
      · rcases List.mem_cons.mp around with rfl | below
        · exact opened parent List.mem_cons_self
        · exact opened block (List.mem_cons_of_mem _ below)
  | nil =>
      dsimp only
      split
      · refine ⟨unlined.registry, ?_, unlined.completed⟩
        intro block member
        exact List.mem_singleton.mp member ▸ fresh _ rfl rfl
      · exact unlined

/-- A block that is sealed is a tree of its children and perhaps a placeholder at its own place. -/
theorem flushed_unlined {block : OpenBlock} (place : TestProgram.Unlined block.location)
    (each : ∀ child ∈ block.children, child.Unlined) (memory : Option MemorySection) :
    (block.flushed memory).toBlock.toTree.Unlined := by
  obtain ⟨_, _, _, location⟩ := flushed_same block memory
  refine .block ?_ ?_
  · rw [OpenBlock.toBlock, location]
    exact place
  · show ∀ child ∈ (block.flushed memory).children, child.Unlined
    unfold OpenBlock.flushed
    split
    · exact each
    · intro child member
      rcases List.mem_append.mp member with earlier | last
      · exact each child earlier
      · exact List.mem_singleton.mp last ▸ .leaf place

theorem Unlined.sublist {session : Session} (unlined : session.Unlined) {blocks : List OpenBlock}
    (fewer : blocks ⊆ session.blocks) : Session.Unlined { session with blocks } :=
  ⟨unlined.registry, fun block member => unlined.blocks block (fewer member), unlined.completed⟩

theorem attach_unlined {session : Session} (unlined : session.Unlined) {sealed : Block Call}
    (tree : sealed.toTree.Unlined) : (session.attach sealed).Unlined := by
  unfold attach
  cases stack : session.blocks with
  | nil =>
      refine ⟨unlined.registry, ?_, ?_⟩
      · intro block member
        cases member
      · intro block completed
        exact Option.some.inj completed ▸ tree
  | cons parent outer =>
      have opened := unlined.blocks
      rw [stack] at opened
      refine ⟨unlined.registry, ?_, unlined.completed⟩
      intro block member
      rcases List.mem_cons.mp member with rfl | below
      · obtain ⟨placed, each⟩ := opened parent List.mem_cons_self
        refine ⟨placed, fun child listed => ?_⟩
        rcases List.mem_append.mp listed with earlier | last
        · exact each child earlier
        · exact List.mem_singleton.mp last ▸ tree
      · exact opened block (List.mem_cons_of_mem _ below)

theorem keeps_closeBlock (handle : BlockHandle) :
    Keeps Session.Unlined (closeBlock handle) := by
  intro session unlined
  unfold closeBlock
  cases stack : session.blocks with
  | nil => exact unlined
  | cons top outer =>
      have opened := unlined.blocks
      rw [stack] at opened
      have fewer : Session.Unlined { session with blocks := outer } :=
        unlined.sublist (by rw [stack]; exact List.subset_cons_self top outer)
      obtain ⟨placed, each⟩ := opened top List.mem_cons_self
      dsimp only
      split
      · split
        · exact fewer
        · exact attach_unlined ((apart_remark _).keeps _ fewer) (flushed_unlined placed each _)
      · exact unlined

theorem discardAbove_unlined {session : Session} (unlined : session.Unlined) (depth : Nat) :
    (session.discardAbove depth).Unlined :=
  unlined.sublist (List.drop_subset _ _)

theorem keeps_leaveBlock (handle : BlockHandle) (location : Location)
    (body : Except Fault Unit) : Keeps Session.Unlined (leaveBlock handle location body) := by
  intro session unlined
  cases body with
  | error fault => exact discardAbove_unlined unlined _
  | ok _ => exact discardAbove_unlined (keeps_closeBlock handle session unlined) _

theorem keeps_bindDefaults (names : List String) (situation : Situation) :
    Keeps Session.Unlined (bindDefaults names situation) := by
  exact (Keeps.forM (fun _ => (apart_remark _).keeps) names).bind
    (fun _ => Apart.keeps (fun _ => ⟨rfl, rfl, rfl⟩))

theorem keeps_enterSection (memory : MemorySection) (location : Location) :
    Keeps Session.Unlined (enterSection memory location) := by
  refine Apart.keeps (fun session => ?_)
  rcases enterSection_cases memory location session with ⟨fault, refused⟩ | ⟨_, engine, entered⟩
  · rw [refused]
    exact ⟨rfl, rfl, rfl⟩
  · rw [entered]
    exact ⟨rfl, rfl, rfl⟩

theorem keeps_declare (declaration : Declaration) (location : Location) :
    Keeps Session.Unlined (declaration.perform location) := by
  intro session unlined
  rcases declaration_adds session declaration location with same | ⟨label, what, adds⟩
  · rw [same]
    exact unlined
  · rw [adds, addLabel]
    exact keeps_inBlock what (by exact fun _ => rfl) (by exact fun _ => .inl rfl) session unlined

theorem keeps_addCall {call : Call} {location : Location} (written : call.location = some location)
    (place : TestProgram.Unlined (some location)) (site : Location) :
    Keeps Session.Unlined (addCall call site) := by
  intro session unlined
  show (inBlock "instruction" _ session).2.Unlined
  refine keeps_inBlock "instruction" ?_ ?_ session unlined
  · exact fun _ => rfl
  · intro block
    refine .inr ⟨_, ?_, rfl⟩
    show TestProgram.Unlined (some (call.location.getD site))
    rw [written]
    exact place

theorem keeps_write (output : Output) (location : Location) :
    Keeps Session.Unlined (Operation.write output location).perform := by
  intro session unlined
  cases output with
  | text content =>
      show (inBlock "text" _ session).2.Unlined
      exact keeps_inBlock "text" (by exact fun _ => rfl) (by exact fun _ => .inl rfl) session
        unlined
  | comment content =>
      show (inBlock "comment" _ session).2.Unlined
      exact keeps_inBlock "comment" (by exact fun _ => rfl) (by exact fun _ => .inl rfl) session
        unlined

/-! ### Phases -/

theorem keeps_beginPhase (kind : PhaseKind) : Keeps Session.Unlined (beginPhase kind) := by
  refine Keeps.bind (Apart.keeps (fun session => ?_)) (fun _ =>
    (keeps_openBlock .sequence {} unlined_none).bind (fun _ => keeps_pure ()))
  unfold enterPhase
  split <;> exact ⟨rfl, rfl, rfl⟩

theorem apart_generation {α : Type} (body : Generation α) : Action.Apart (Action.generation body) :=
  fun _ => ⟨rfl, rfl, rfl⟩

theorem keeps_generateSequences (block : Block Call) :
    Keeps Session.Unlined (generateSequences block) :=
  keeps_get.bind (fun _ => (apart_generation _).keeps)

theorem keeps_takePhaseBlock (kind : PhaseKind) :
    Keeps Session.Unlined (takePhaseBlock kind) := by
  refine (keeps_closeBlock _).bind (fun _ => keeps_get.bind (fun session => ?_))
  split
  · refine Keeps.bind (fun session unlined => ?_) (fun _ => keeps_pure _)
    exact ⟨unlined.registry, unlined.blocks, (by intro block none_left; cases none_left)⟩
  · exact keeps_throw _

theorem keeps_endPhase (kind : PhaseKind) (outcome : Except Fault Unit) :
    Keeps Session.Unlined (endPhase kind outcome) := by
  have emptied : Keeps Session.Unlined
      (modify (fun session => { session with blocks := [] }) : Action Unit) :=
    fun session unlined => unlined.sublist (List.nil_subset _)
  cases outcome with
  | error fault =>
      refine Keeps.bind (fun session unlined => ?_) (fun _ => keeps_throw fault)
      exact ⟨unlined.registry, (by intro block member; cases member), unlined.completed⟩
  | ok _ =>
      refine keeps_get.bind (fun session => ?_)
      dsimp only
      split
      · exact emptied.bind (fun _ => keeps_throw_bind _ _)
      · exact (keeps_takePhaseBlock kind).bind (fun block =>
          (keeps_generateSequences block).bind (fun _ =>
            (apart_remark _).keeps.bind (fun _ => keeps_pure _)))

end Session

/-! ## Studios -/

variable {ε : Type}

/-- Nothing in the session of the studio was written in a line of a program. -/
def Studio.Unlined (studio : Studio ε) : Prop :=
  studio.session.Unlined

/-- What is kept by all that is done to a session without writing in a line of a program. -/
structure Studio.Robust (I : Studio ε → Prop) : Prop where
  session : ∀ {α : Type} {action : Action α}, Keeps Session.Unlined action →
    Keeps I (Act.session action : Act ε α)

theorem Studio.robust_unlined : Studio.Robust (Studio.Unlined : Studio ε → Prop) where
  session keeps := fun studio unlined => keeps studio.session unlined

/-- What is said of the memory of a studio alone. -/
theorem Studio.robust_memory (M : ε → Prop) : Studio.Robust (fun studio => M studio.memory) where
  session _ := fun _ holds => holds

namespace Act

variable {α : Type} {I : Studio ε → Prop}

theorem keeps_ofExcept (outcome : Except Fault α) : Keeps I (ofExcept outcome : Act ε α) :=
  fun _ holds => holds

theorem keeps_attempt {body : Act ε α} (keeps : Keeps I body) : Keeps I (attempt body) :=
  keeps

theorem keeps_locating {body : Act ε α} (keeps : Keeps I body) (location : Location) :
    Keeps I (locating location body) :=
  keeps

section Robust

variable (robust : Studio.Robust I)

include robust

theorem keeps_apart {action : Action α} (apart : action.Apart) :
    Keeps I (session action : Act ε α) :=
  robust.session apart.keeps

theorem keeps_data (action : DataAction α) : Keeps I (data action : Act ε α) :=
  keeps_apart robust (fun _ => ⟨rfl, rfl, rfl⟩)

theorem keeps_startPhase (kind : PhaseKind) : Keeps I (startPhase kind : Act ε Unit) :=
  (keeps_apart robust (Action.apart_remark _)).bind
    (fun _ => robust.session (Session.keeps_beginPhase kind))

variable {body : Act ε Unit} (keeps : Keeps I body)

include keeps

theorem keeps_scopedBlock (kind : BlockKind) (options : BlockOptions) {location : Location}
    (place : Unlined (some location)) : Keeps I (scopedBlock kind options location body) :=
  (robust.session (Session.keeps_openBlock kind options place)).bind (fun handle =>
    (keeps_attempt keeps).bind (fun outcome =>
      robust.session (Session.keeps_leaveBlock handle location outcome)))

theorem keeps_withAttributes (attributes : Attributes) :
    Keeps I (withAttributes attributes body) :=
  (keeps_apart robust (fun _ => ⟨rfl, rfl, rfl⟩)).bind (fun _ => (keeps_attempt keeps).bind
    (fun outcome => (keeps_apart robust (fun _ => ⟨rfl, rfl, rfl⟩)).bind
      (fun _ => keeps_ofExcept outcome)))

theorem keeps_inSection (memory : MemorySection) (location : Location) :
    Keeps I (inSection memory location body) :=
  (robust.session (Session.keeps_enterSection memory location)).bind (fun _ =>
    (keeps_attempt keeps).bind (fun _ =>
      (keeps_apart robust (fun _ => ⟨rfl, rfl, rfl⟩)).bind (fun _ => keeps_ofExcept _)))

theorem keeps_dataRegion (region : DataRegion) (location : Location) :
    Keeps I (dataRegion region location body) :=
  (keeps_apart robust (fun _ => ⟨rfl, rfl, rfl⟩)).bind (fun _ =>
    (keeps_locating (keeps_data robust _) location).bind (fun _ => (keeps_attempt keeps).bind
      (fun _ => (keeps_data robust _).bind (fun _ => keeps_ofExcept _))))

theorem keeps_nestedRegion (region : DataRegion) : Keeps I (nestedRegion region body) :=
  (keeps_data robust _).bind (fun _ => (keeps_attempt keeps).bind (fun outcome =>
    (keeps_data robust _).bind (fun _ => keeps_ofExcept outcome)))

theorem keeps_configureData (config : DataConfig) (location : Location) :
    Keeps I (configureData config location body) :=
  (keeps_locating (keeps_data robust _) location).bind (fun _ => (keeps_attempt keeps).bind
    (fun _ => (keeps_data robust _).bind (fun _ => keeps_ofExcept _)))

theorem keeps_runPhase (kind : PhaseKind) : Keeps I (runPhase kind body) := by
  rw [runPhase_eq]
  exact (keeps_startPhase robust kind).bind (fun _ => (keeps_attempt keeps).bind
    (fun outcome => robust.session (Session.keeps_endPhase kind outcome)))

end Robust

end Act

end TestProgram
