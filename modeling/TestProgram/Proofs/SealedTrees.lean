/-
# TestProgram.Proofs.SealedTrees -- a sealed tree can always be expanded

Whether a strategy is there is asked twice.  When a block closes, the strategies that it names
must be registered; when its tree is expanded, each option is looked up, by the name given or by
its default.  Nothing is asked about defaults when the block closes, and much may happen between
the two.

The registry of a session starts with the built-in strategies and only ever grows by
registrations, which may replace a strategy but take no name away (`Registry.provides_all`).  So
the defaults are always there, and what was registered when a block closed still is when it is
expanded.  `Session.Sound` says this of all that hangs in the open blocks of a session, every
move of a session keeps it (`Session.Sound.move`), and so `Session.sealed_expands` holds of every
block that was ever sealed: expansion finds all its strategies, and it fails for no other reason.
-/
import TestProgram.Proofs.Conservation
import TestProgram.Proofs.Operations
import Mathlib.Logic.Relation

namespace TestProgram

set_option autoImplicit false

/-! ## Registrations -/

namespace KeyMap

variable {β : Type} {table : KeyMap β} {key : String}

theorem contains_insert (other : String) (value : β)
    (held : key = other ∨ table.contains key = true) :
    (table.insert other value).contains key = true := by
  by_cases same : key = other
  · subst same
    rw [contains, find?_insert_self]
    rfl
  · rw [contains, find?_insert_of_ne table value same]
    exact held.resolve_left same

/-- A table holds all that was put into it. -/
theorem contains_ofList {pairs : List (String × β)} {value : β} (listed : (key, value) ∈ pairs) :
    (ofList pairs).contains key = true := by
  have grown : ∀ (pairs : List (String × β)) (table : KeyMap β),
      table.contains key = true ∨ key ∈ pairs.map Prod.fst →
        KeyMap.contains (pairs.foldl (fun table pair => insert table pair.1 pair.2) table)
          key = true := by
    intro pairs
    induction pairs with
    | nil =>
        intro table held
        exact held.resolve_right List.not_mem_nil
    | cons first rest ih =>
        intro table held
        apply ih
        rcases held with before | later
        · exact .inl (contains_insert first.1 first.2 (.inr before))
        · rcases List.mem_cons.mp later with here | further
          · exact .inl (contains_insert first.1 first.2 (.inl here))
          · exact .inr further
  exact grown pairs [] (.inr (List.mem_map.mpr ⟨(key, value), listed, rfl⟩))

end KeyMap

/-- A strategy and the name it is registered under. -/
inductive Registration (α : Type)
  | combinator (name : String) (strategy : Combinator α)
  | permutator (name : String) (strategy : Permutator α)
  | compositor (name : String) (strategy : Compositor α)
  | rearranger (name : String) (strategy : Rearranger α)
  | obfuscator (name : String) (strategy : Obfuscator α)

namespace Registry

variable {α : Type} {registry : Registry α}

def register (registry : Registry α) : Registration α → Registry α
  | .combinator name strategy => registry.registerCombinator name strategy
  | .permutator name strategy => registry.registerPermutator name strategy
  | .compositor name strategy => registry.registerCompositor name strategy
  | .rearranger name strategy => registry.registerRearranger name strategy
  | .obfuscator name strategy => registry.registerObfuscator name strategy

def registerAll (registry : Registry α) (registrations : List (Registration α)) : Registry α :=
  registrations.foldl register registry

theorem registerAll_append (registry : Registry α) (first second : List (Registration α)) :
    registry.registerAll (first ++ second) = (registry.registerAll first).registerAll second :=
  List.foldl_append

theorem knows_register {option : StrategyOption} {name : String} (registration : Registration α)
    (known : registry.knows option name = true) :
    (registry.register registration).knows option name = true := by
  cases registration <;> cases option <;>
    first | exact known | exact KeyMap.contains_insert _ _ (.inr known)

/-- Each option has its strategy, by the name given or by default. -/
def Provides (registry : Registry α) (strategies : StrategySet) : Prop :=
  ∀ option, registry.knows option ((strategies.get? option).getD option.default) = true

theorem provides_all {strategies : StrategySet} (registrations : List (Registration α))
    (provides : registry.Provides strategies) :
    (registry.registerAll registrations).Provides strategies := by
  induction registrations generalizing registry with
  | nil => exact provides
  | cons registration rest ih =>
      apply ih
      exact fun option => knows_register registration (provides option)

theorem builtins_provide : (Strategy.builtins : Registry α).Provides {} := by
  intro option
  cases option with
  | combinator => exact KeyMap.contains_ofList List.mem_cons_self
  | permutator => exact KeyMap.contains_ofList List.mem_cons_self
  | compositor => exact KeyMap.contains_ofList List.mem_cons_self
  | rearranger => exact KeyMap.contains_ofList List.mem_cons_self
  | obfuscator => exact KeyMap.contains_ofList List.mem_cons_self

/-- The check that a block passes when it closes asks for names only; the defaults must be there
besides. -/
theorem provides_of_check {strategies : StrategySet} (defaults : registry.Provides {})
    (checked : registry.check strategies = .ok ()) : registry.Provides strategies := by
  intro option
  cases named : strategies.get? option with
  | none =>
      have unnamed : ({} : StrategySet).get? option = none := by cases option <;> rfl
      have default_there := defaults option
      rw [unnamed] at default_there
      exact default_there
  | some name =>
      have attached : (option, name) ∈ strategies.attached :=
        List.mem_filterMap.mpr ⟨option, by cases option <;> decide, by rw [named]; rfl⟩
      unfold check at checked
      split at checked
      · cases checked
      · rename_i none_missing
        simpa using List.find?_eq_none.mp none_missing (option, name) attached

theorem exists_lookup {β : Type} {table : KeyMap β} {option : StrategyOption}
    {name : Option String} (held : table.contains (name.getD option.default) = true) :
    ∃ strategy, lookup table option name = .ok strategy := by
  obtain ⟨strategy, found⟩ := Option.isSome_iff_exists.mp held
  exact ⟨strategy, by simp only [lookup, found]⟩

/-- What is provided is found when a block is expanded. -/
theorem Provides.knows {info : BlockInfo} (provides : registry.Provides info.strategies) :
    Expansion.Knows registry info := by
  constructor
  · cases kind : info.kind with
    | free =>
        obtain ⟨combine, combines⟩ := exists_lookup (provides .combinator)
        obtain ⟨permute, permutes⟩ := exists_lookup (provides .permutator)
        obtain ⟨compose, composes⟩ := exists_lookup (provides .compositor)
        exact ⟨_, Expansion.composition_free combines permutes composes⟩
    | _ => exact ⟨_, rfl⟩
  · obtain ⟨rearrange, rearranges⟩ := exists_lookup (provides .rearranger)
    obtain ⟨obfuscate, obfuscates⟩ := exists_lookup (provides .obfuscator)
    exact ⟨_, Except.bind_ok_iff.mpr ⟨rearrange, rearranges,
      Except.bind_ok_iff.mpr ⟨obfuscate, obfuscates, rfl⟩⟩⟩

/-- The blocks of the tree find their strategies. -/
def Serves (registry : Registry α) (tree : Tree α) : Prop :=
  tree.EachBlock (fun info => registry.Provides info.strategies)

theorem Serves.registerAll {tree : Tree α} (serves : registry.Serves tree)
    (registrations : List (Registration α)) : (registry.registerAll registrations).Serves tree :=
  fun place info children found =>
    provides_all registrations (serves place info children found)

end Registry

theorem Expansion.expand_served {α : Type} {registry : Registry α} {tree : Tree α}
    (serves : registry.Serves tree) (engine : Engine) :
    ∃ streams last, expand registry tree engine = (.ok streams, last) :=
  expand_succeeds tree
    (fun place info children found => (serves place info children found).knows) engine

/-! ## Moves -/

/-- The grown block has no further children but calls. -/
def OpenBlock.GainsCalls (block grown : OpenBlock) : Prop :=
  ∀ child ∈ grown.children, child ∈ block.children ∨ ∃ call, child = .leaf call

theorem OpenBlock.gainsCalls_append {block grown : OpenBlock} {call : Call}
    (appended : grown.children = block.children ++ [.leaf call]) : block.GainsCalls grown := by
  intro child member
  rw [appended] at member
  rcases List.mem_append.mp member with before | added
  · exact .inl before
  · exact .inr ⟨call, List.mem_singleton.mp added⟩

theorem OpenBlock.gainsCalls_same {block grown : OpenBlock}
    (same : grown.children = block.children) : block.GainsCalls grown :=
  fun _ member => .inl (same ▸ member)

theorem OpenBlock.flushed_gainsCalls (block : OpenBlock) (memory : Option MemorySection) :
    block.GainsCalls (block.flushed memory) := by
  unfold OpenBlock.flushed
  split
  · exact gainsCalls_same rfl
  · exact gainsCalls_append rfl

namespace Session

variable {session after : Session}

/-- What can happen to a session between two moments.  Handles may be any that there are. -/
inductive Move (session : Session) : Session → Prop
  | opened (kind : BlockKind) (options : BlockOptions) (location : Option Location) :
      Move session (openBlock kind options location session).2
  | closed (handle : BlockHandle) : Move session (closeBlock handle session).2
  | called (call : Call) (location : Location) : Move session (addCall call location session).2
  | declared (declaration : Declaration) (location : Location) :
      Move session (declaration.perform location session).2
  | written (output : Output) (location : Location) :
      Move session ((Operation.write output location).perform session).2
  /-- Strategies are registered, and whatever opens and fills no block is done; innermost blocks
  may go. -/
  | aside {after : Session} (registrations : List (Registration Call))
      (registry : after.registry = session.registry.registerAll registrations)
      (kept : after.blocks <:+ session.blocks) : Move session after

/-- The one session can become the other. -/
def Reaches : Session → Session → Prop :=
  Relation.ReflTransGen Move

/-- Something is done that leaves the registry as it is; innermost blocks may go. -/
theorem Move.apart (same : after.registry = session.registry)
    (kept : after.blocks <:+ session.blocks) : Move session after :=
  .aside [] same kept

/-- The innermost block, if there is one, gets nothing but calls as further children. -/
def Fills (session after : Session) : Prop :=
  ∃ change : OpenBlock → OpenBlock,
    after = { session with blocks := session.blocks.modifyHead change } ∧
    ∀ block : OpenBlock, block.GainsCalls (change block)

theorem Fills.registry (fills : Fills session after) : after.registry = session.registry := by
  obtain ⟨change, rfl, _⟩ := fills
  rfl

theorem inBlock_fills (what : String) {change : OpenBlock → OpenBlock}
    (gains : ∀ block : OpenBlock, block.GainsCalls (change block)) :
    Fills session (inBlock what change session).2 := by
  refine ⟨change, ?_, gains⟩
  obtain ⟨settings, engine, registry, defaults, data, blocks, _⟩ := session
  cases blocks <;> rfl

theorem addCall_fills (call : Call) (location : Location) :
    Fills session (addCall call location session).2 :=
  inBlock_fills "instruction" (fun _ => OpenBlock.gainsCalls_append rfl)

theorem declare_fills (declaration : Declaration) (location : Location) :
    Fills session (declaration.perform location session).2 := by
  rcases declaration_adds session declaration location with same | ⟨label, what, added⟩
  · rw [same]
    refine ⟨id, ?_, fun _ => OpenBlock.gainsCalls_same rfl⟩
    rw [List.modifyHead_id]
    rfl
  · rw [added]
    exact inBlock_fills what (fun _ => OpenBlock.gainsCalls_same rfl)

theorem write_fills (output : Output) (location : Location) :
    Fills session ((Operation.write output location).perform session).2 := by
  cases output <;> exact inBlock_fills _ (fun _ => OpenBlock.gainsCalls_same rfl)

theorem Closing.registry {handle : BlockHandle} {outcome : Except Fault (Block Call)}
    (closing : session.Closing handle outcome after) : after.registry = session.registry := by
  cases closing with
  | refused fault => rfl
  | dropped fault stack height => rfl
  | sealed stack height fits registry hung => exact registry

/-- The strategies that an admissible block names are registered. -/
theorem check_of_admissible {block : OpenBlock} (fits : session.admissible block = .ok ()) :
    session.registry.check block.options.strategies = .ok () := by
  obtain ⟨_, _, checked⟩ := Except.bind_ok_iff.mp (Except.mapError_ok_iff.mp fits)
  exact checked

/-! ## Soundness -/

/-- The defaults are registered, and what hangs in the open blocks finds its strategies. -/
structure Sound (session : Session) : Prop where
  defaults : session.registry.Provides {}
  served : ∀ block ∈ session.blocks, ∀ child ∈ block.children, session.registry.Serves child

theorem sound_new (settings : Settings) : Sound (Session.new settings) where
  defaults := Registry.builtins_provide
  served := fun _ member => absurd member List.not_mem_nil

/-- The innermost block, if there is one, gets only children that find their strategies. -/
theorem Sound.modifyHead {blocks : List OpenBlock} {change : OpenBlock → OpenBlock}
    (sound : Sound session) (same : after.registry = session.registry)
    (kept : blocks <:+ session.blocks) (changed : after.blocks = blocks.modifyHead change)
    (adds : ∀ block, ∀ child ∈ (change block).children,
      child ∈ block.children ∨ session.registry.Serves child) : Sound after := by
  refine ⟨same ▸ sound.defaults, fun block member child inside => ?_⟩
  rw [same]
  rw [changed] at member
  cases blocks with
  | nil => cases member
  | cons top outer =>
      rcases List.mem_cons.mp member with rfl | below
      · rcases adds top child inside with before | served
        · exact sound.served top (kept.mem List.mem_cons_self) child before
        · exact served
      · exact sound.served block (kept.mem (List.mem_cons_of_mem top below)) child inside

theorem Sound.fills (sound : Sound session) (fills : Fills session after) : Sound after := by
  obtain ⟨change, rfl, gains⟩ := fills
  refine sound.modifyHead rfl (List.suffix_refl _) rfl (fun block child member => ?_)
  rcases gains block child member with before | ⟨call, rfl⟩
  · exact .inl before
  · exact .inr (Tree.eachBlock_leaf call)

theorem Sound.opened (sound : Sound session) (kind : BlockKind) (options : BlockOptions)
    (location : Option Location) : Sound (openBlock kind options location session).2 := by
  cases stack : session.blocks with
  | nil =>
      simp only [openBlock, stack]
      split
      · refine ⟨sound.defaults, fun block member child inside => ?_⟩
        rw [List.mem_singleton.mp member] at inside
        cases inside
      · exact sound
  | cons parent outer =>
      simp only [openBlock, stack]
      refine ⟨sound.defaults, fun block member child inside => ?_⟩
      have served := sound.served
      rw [stack] at served
      rcases List.mem_cons.mp member with rfl | around
      · cases inside
      · rcases List.mem_cons.mp around with rfl | below
        · exact served parent List.mem_cons_self child inside
        · exact served block (List.mem_cons_of_mem parent below) child inside

/-- A sealed block finds its strategies: it has passed its check, and its children have found
theirs when they were sealed. -/
theorem Sound.sealed_served {handle : BlockHandle} {block : Block Call} (sound : Sound session)
    (closing : session.Closing handle (.ok block) after) :
    session.registry.Serves block.toTree := by
  cases closing with
  | sealed stack height fits registry hung =>
      rename_i top outer
      refine Tree.eachBlock_block.mpr ⟨?_, fun child member => ?_⟩
      · show session.registry.Provides (top.flushed session.currentSection).options.strategies
        rw [(flushed_same top session.currentSection).2.2.1]
        exact Registry.provides_of_check sound.defaults (check_of_admissible fits)
      · rcases OpenBlock.flushed_gainsCalls top _ child member with before | ⟨call, rfl⟩
        · exact sound.served top (stack ▸ List.mem_cons_self) child before
        · exact Tree.eachBlock_leaf call

theorem Sound.closing {handle : BlockHandle} {outcome : Except Fault (Block Call)}
    (sound : Sound session) (closing : session.Closing handle outcome after) : Sound after := by
  cases closing with
  | refused fault => exact sound
  | dropped fault stack height =>
      refine ⟨sound.defaults, fun block member => sound.served block ?_⟩
      rw [stack]
      exact List.mem_cons_of_mem _ member
  | sealed stack height fits registry hung =>
      have served := sound.sealed_served (.sealed stack height fits registry hung)
      refine sound.modifyHead registry (stack ▸ List.suffix_cons _ _) hung
        (fun block child member => ?_)
      rcases List.mem_append.mp member with before | last
      · exact .inl before
      · rw [List.mem_singleton.mp last]
        exact .inr served

theorem Sound.move (sound : Sound session) (move : Move session after) : Sound after := by
  cases move with
  | opened kind options location => exact sound.opened kind options location
  | closed handle => exact sound.closing (closeBlock_closing rfl)
  | called call location => exact sound.fills (addCall_fills call location)
  | declared declaration location => exact sound.fills (declare_fills declaration location)
  | written output location => exact sound.fills (write_fills output location)
  | aside registrations registry kept =>
      refine ⟨?_, fun block member child inside => ?_⟩
      · rw [registry]
        exact Registry.provides_all registrations sound.defaults
      · rw [registry]
        exact (sound.served block (kept.mem member) child inside).registerAll registrations

theorem Move.registry (move : Move session after) :
    ∃ registrations, after.registry = session.registry.registerAll registrations := by
  cases move with
  | opened kind options location =>
      refine ⟨[], ?_⟩
      unfold openBlock
      split
      · rfl
      · split <;> rfl
  | closed handle => exact ⟨[], (closeBlock_closing rfl).registry⟩
  | called call location => exact ⟨[], (addCall_fills call location).registry⟩
  | declared declaration location => exact ⟨[], (declare_fills declaration location).registry⟩
  | written output location => exact ⟨[], (write_fills output location).registry⟩
  | aside registrations registry kept => exact ⟨registrations, registry⟩

theorem Reaches.sound (reaches : session.Reaches after) (sound : Sound session) : Sound after := by
  induction reaches with
  | refl => exact sound
  | tail _ move ih => exact ih.move move

/-- The registry grows by registrations and in no other way. -/
theorem Reaches.registry (reaches : session.Reaches after) :
    ∃ registrations, after.registry = session.registry.registerAll registrations := by
  induction reaches with
  | refl => exact ⟨[], rfl⟩
  | tail _ move ih =>
      obtain ⟨before, grown⟩ := ih
      obtain ⟨further, grows⟩ := move.registry
      exact ⟨before ++ further, by rw [grows, grown, Registry.registerAll_append]⟩

/-- Whatever has happened before a block was sealed and whatever happens after, its tree can be
expanded, from any random source. -/
theorem sealed_expands {settings : Settings} {sealing sealed later : Session}
    {handle : BlockHandle} {block : Block Call}
    (reached : (Session.new settings).Reaches sealing)
    (closes : closeBlock handle sealing = (.ok block, sealed)) (onwards : sealed.Reaches later)
    (engine : Engine) : ∃ streams last,
      Expansion.expand later.registry block.toTree engine = (.ok streams, last) := by
  have sound : Sound sealing := reached.sound (sound_new settings)
  have closing := closeBlock_closing closes
  have served := sound.sealed_served closing
  obtain ⟨registrations, grown⟩ := onwards.registry
  rw [closing.registry] at grown
  apply Expansion.expand_served
  rw [grown]
  exact served.registerAll registrations

end Session

/-! ## What bodies and phases do are moves -/

/-- Whatever the action is used on, the session comes out by moves. -/
def Action.Moves {α : Type} (body : Action α) : Prop :=
  ∀ session : Session, session.Reaches (body session).2

namespace Action

variable {α β : Type}

theorem Moves.reaches {body : Action α} {session after : Session} {outcome : Except Fault α}
    (moves : Moves body) (run : body session = (outcome, after)) : session.Reaches after := by
  have moved := moves session
  rw [run] at moved
  exact moved

theorem Moves.bind {first : Action α} {next : α → Action β} (here : Moves first)
    (there : ∀ value, Moves (next value)) : Moves (first >>= next) := by
  intro session
  rw [Computation.bind_run]
  rcases run : first session with ⟨_ | value, after⟩
  · exact here.reaches run
  · exact (here.reaches run).trans (there value after)

theorem moves_apart {body : Action α}
    (same : ∀ session, (body session).2.registry = session.registry)
    (kept : ∀ session, (body session).2.blocks <:+ session.blocks) : Moves body :=
  fun session => .single (.apart (same session) (kept session))

theorem moves_pure (value : α) : Moves (pure value : Action α) :=
  fun _ => .refl

theorem moves_throw (fault : Fault) : Moves (throw fault : Action α) :=
  fun _ => .refl

theorem moves_get : Moves (get : Action Session) :=
  fun _ => .refl

theorem moves_openBlock (kind : BlockKind) (options : BlockOptions)
    (location : Option Location) : Moves (Session.openBlock kind options location) :=
  fun _ => .single (.opened kind options location)

theorem moves_closeBlock (handle : BlockHandle) : Moves (Session.closeBlock handle) :=
  fun _ => .single (.closed handle)

end Action

namespace Operation

open TestProgram.Action

/-- The operation does nothing to the registry but registrations. -/
def Registers : Operation → Prop
  | .aside change _ => ∀ session, ∃ registrations,
      (change session).registry = session.registry.registerAll registrations
  | _ => True

theorem moves {operation : Operation} (registers : operation.Registers) :
    Moves operation.perform := by
  cases operation with
  | openBlock kind options location =>
      exact (moves_openBlock kind options location).bind (fun _ => moves_pure ())
  | closeBlock handle inside => exact (moves_closeBlock handle).bind (fun _ => moves_pure ())
  | leaveBlock handle inside location body =>
      cases body with
      | error fault => exact moves_apart (fun _ => rfl) (Session.discardAbove_suffix handle.depth)
      | ok _ =>
          intro session
          exact .tail (.single (.closed handle))
            (.apart rfl (Session.discardAbove_suffix handle.depth _))
  | addCall call location => exact fun session => .single (.called call location)
  | declare declaration location => exact fun session => .single (.declared declaration location)
  | write output location => exact fun session => .single (.written output location)
  | aside change apart =>
      intro session
      obtain ⟨registrations, registry⟩ := registers session
      exact .single (.aside registrations registry (apart session ▸ List.suffix_refl _))

end Operation

namespace Session

open TestProgram.Action

theorem reaches_after {operations : List Operation}
    (registers : ∀ operation ∈ operations, operation.Registers) (session : Session) :
    session.Reaches (session.after operations) := by
  induction operations generalizing session with
  | nil => exact .refl
  | cons operation rest ih =>
      have here : operation.Registers := registers operation List.mem_cons_self
      have there := ih (fun other member => registers other (List.mem_cons_of_mem operation member))
      exact (Operation.moves here session).trans (there _)

theorem moves_beginPhase (kind : PhaseKind) : Moves (beginPhase kind) := by
  refine Moves.bind ?_ (fun _ => (moves_openBlock _ _ _).bind (fun _ => moves_pure ()))
  refine moves_apart (fun session => ?_) (fun session => ?_)
  · unfold enterPhase
    split <;> rfl
  · unfold enterPhase
    split <;> exact List.suffix_refl _

/-- However a phase ends, it ends by moves, so what holds of every history goes on to hold in
the next phase. -/
theorem moves_endPhase (kind : PhaseKind) (outcome : Except Fault Unit) :
    Moves (endPhase kind outcome) := by
  have dropped : ∀ body : Action Unit, (∀ session, (body session).2.registry = session.registry) →
      (∀ session, (body session).2.blocks = []) → Moves body :=
    fun body same emptied => moves_apart same (fun session => emptied session ▸ List.nil_suffix)
  have aside : ∀ {α : Type} (body : Action α),
      (∀ session, (body session).2.registry = session.registry) →
      (∀ session, (body session).2.blocks = session.blocks) → Moves body :=
    fun body same kept => moves_apart same (fun session => kept session ▸ List.suffix_refl _)
  have takes : Moves (takePhaseBlock kind) := by
    refine (moves_closeBlock _).bind (fun _ => moves_get.bind (fun held => ?_))
    split
    · exact (aside _ (fun _ => rfl) (fun _ => rfl)).bind (fun _ => moves_pure _)
    · exact moves_throw _
  cases outcome with
  | error fault => exact (dropped _ (fun _ => rfl) (fun _ => rfl)).bind (fun _ => moves_throw fault)
  | ok _ =>
      refine moves_get.bind (fun held => ?_)
      dsimp only
      split
      · exact (dropped _ (fun _ => rfl) (fun _ => rfl)).bind (fun _ => moves_throw _)
      · refine takes.bind (fun block => Moves.bind ?_ (fun sequences =>
          Moves.bind ?_ (fun _ => moves_pure _)))
        · exact aside _ (fun _ => rfl) (fun _ => rfl)
        · exact aside _ (fun _ => rfl) (fun _ => rfl)

end Session
end TestProgram
