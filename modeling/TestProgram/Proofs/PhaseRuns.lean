/-
# TestProgram.Proofs.PhaseRuns -- what a phase that was generated has gone through

A phase succeeds in one way only.  A block is opened for it, its body runs to the end and
leaves just this block open, which is sealed, taken out and expanded (`Act.runPhase_ok`).  What
is said of phases elsewhere is said of these three stretches, so no other proof opens
`runPhase`.
-/
import TestProgram.Proofs.Computation
import TestProgram.Session.Phases

namespace TestProgram

set_option autoImplicit false

variable {ε : Type}

namespace Act

theorem session_ok {β : Type} {body : Action β} {studio after : Studio ε} {value : β}
    (run : session body studio = (.ok value, after)) :
    body studio.session = (.ok value, after.session) := by
  rcases ended : body studio.session with ⟨outcome, last⟩
  simp only [session, ended] at run
  cases run
  rfl

/-- What a session does leaves the memory of its studio as it is. -/
theorem session_memory {α : Type} {body : Action α} {studio after : Studio ε}
    {outcome : Except Fault α} (run : session body studio = (outcome, after)) :
    after.memory = studio.memory := by
  cases run
  rfl

end Act

theorem Act.exists_ok {α : Type} {run : Except Fault α × Studio ε} (succeeds : run.1.isOk = true) :
    ∃ value after, run = (.ok value, after) := by
  obtain ⟨_ | value, after⟩ := run
  · cases succeeds
  · exact ⟨value, after, rfl⟩

namespace Session

variable {session after : Session} {kind : PhaseKind}

/-! ## The beginning -/

/-- A phase begins with a sequence block as the root of its tree. -/
theorem beginPhase_ok (closed : session.blocks = [])
    (run : beginPhase kind session = (.ok (), after)) :
    ∃ lifecycle, session.lifecycle.enter kind = some lifecycle ∧ lifecycle.isRunning = true ∧
      after = { session with lifecycle, blocks := [{ id := BlockId.root, kind := .sequence }] } := by
  obtain ⟨_, entered, enters, run⟩ := Computation.bind_ok_iff.mp run
  obtain ⟨handle, opened, opens, run⟩ := Computation.bind_ok_iff.mp run
  cases run
  cases found : session.lifecycle.enter kind with
  | none =>
      simp only [enterPhase, found] at enters
      cases enters
  | some lifecycle =>
      have running : lifecycle.isRunning = true := by
        unfold Lifecycle.enter at found
        split at found <;> cases found <;> rfl
      simp only [enterPhase, found] at enters
      cases enters
      simp only [openBlock, closed, running, if_true] at opens
      cases opens
      exact ⟨lifecycle, rfl, running, rfl⟩

theorem beginPhase_of_enter {lifecycle : Lifecycle} (closed : session.blocks = [])
    (enters : session.lifecycle.enter kind = some lifecycle)
    (running : lifecycle.isRunning = true) :
    beginPhase kind session = (.ok (), { session with
      lifecycle, blocks := [{ id := BlockId.root, kind := .sequence }] }) := by
  refine Computation.bind_ok_iff.mpr ⟨(), { session with lifecycle }, ?_, ?_⟩
  · simp only [enterPhase, enters]
  · refine Computation.bind_ok_iff.mpr ⟨⟨BlockId.root, 0⟩, { session with
      lifecycle, blocks := [{ id := BlockId.root, kind := .sequence }] }, ?_, rfl⟩
    simp only [openBlock, closed, running, if_true]

/-! ## The end -/

theorem flushed_same (block : OpenBlock) (memory : Option MemorySection) :
    (block.flushed memory).id = block.id ∧ (block.flushed memory).kind = block.kind ∧
      (block.flushed memory).options = block.options ∧
      (block.flushed memory).location = block.location := by
  unfold OpenBlock.flushed
  split <;> exact ⟨rfl, rfl, rfl, rfl⟩

theorem admissible_flushed (session : Session) (block : OpenBlock) (memory : Option MemorySection) :
    session.admissible (block.flushed memory) = session.admissible block := by
  obtain ⟨_, kind, options, location⟩ := flushed_same block memory
  rw [Session.admissible, Session.admissible, kind, options, location]

/-- The session when the block of its phase has been taken out. -/
def withoutPhaseBlock (session : Session) (block : OpenBlock) : Session :=
  { session with
    blocks := []
    completed := none
    engine := { session.engine with
      journal := session.engine.journal ++ [.sealed block.kind block.id block.children.length] } }

/-- The only open block is kept as the completed one when it closes. -/
theorem closeBlock_root {session : Session} {block : OpenBlock} (only : session.blocks = [block])
    (root : block.id = BlockId.root) (fits : session.admissible block = .ok ()) :
    closeBlock ⟨BlockId.root, 0⟩ session =
      (.ok (block.flushed session.currentSection).toBlock,
        { session.withoutPhaseBlock (block.flushed session.currentSection) with
          completed := some (block.flushed session.currentSection).toBlock }) := by
  have bare : Session.admissible { session with blocks := [] }
      (block.flushed session.currentSection) = session.admissible block :=
    admissible_flushed _ _ _
  simp only [closeBlock, only, root, List.length_singleton, Nat.zero_add, and_true, if_true, bare,
    fits]
  rfl

/-- What it takes to seal the only open block, and what comes of it. -/
theorem takePhaseBlock_ok_iff {session after : Session} {block : OpenBlock} {sealed : Block Call}
    (only : session.blocks = [block]) :
    takePhaseBlock kind session = (.ok sealed, after) ↔
      block.id = BlockId.root ∧ session.admissible block = .ok () ∧
        sealed = (block.flushed session.currentSection).toBlock ∧
        after = session.withoutPhaseBlock (block.flushed session.currentSection) := by
  rw [takePhaseBlock, Computation.bind_run]
  by_cases root : block.id = BlockId.root
  · cases fits : session.admissible block with
    | error fault =>
        have bare : Session.admissible { session with blocks := [] }
            (block.flushed session.currentSection) = session.admissible block :=
          admissible_flushed _ _ _
        have closes : closeBlock ⟨BlockId.root, 0⟩ session =
            (.error fault, { session with blocks := [] }) := by
          simp [closeBlock, only, root, bare, fits]
        rw [closes]
        refine ⟨fun run => ?_, fun held => ?_⟩
        · cases run
        · cases held.2.1
    | ok _ =>
        rw [closeBlock_root only root fits]
        simp only [root, true_and]
        constructor
        · intro run
          cases run
          exact ⟨rfl, rfl⟩
        · rintro ⟨rfl, rfl⟩
          rfl
  · have closes : closeBlock ⟨BlockId.root, 0⟩ session =
        (.error (Fault.of (.innerBlockOpen BlockId.root block.id)), session) := by
      simp [closeBlock, only, root]
    rw [closes]
    refine ⟨fun run => ?_, fun held => absurd held.1 root⟩
    cases run

/-- With only the block of the phase open, a phase ends as its sequences are generated. -/
theorem endPhase_run {block : OpenBlock} (only : session.blocks = [block])
    (root : block.id = BlockId.root) (fits : session.admissible block = .ok ()) :
    endPhase kind (.ok ()) session =
      match generateSequences (block.flushed session.currentSection).toBlock
        (session.withoutPhaseBlock (block.flushed session.currentSection)) with
      | (.ok sequences, last) =>
          (.ok { kind, block := (block.flushed session.currentSection).toBlock, sequences },
            (Action.remark (.phaseGenerated kind sequences.length) last).2)
      | (.error fault, last) => (.error fault, last) := by
  have takes : takePhaseBlock kind session =
      (.ok (block.flushed session.currentSection).toBlock,
        session.withoutPhaseBlock (block.flushed session.currentSection)) :=
    (takePhaseBlock_ok_iff only).mpr ⟨root, fits, rfl, rfl⟩
  have one_open : ¬ session.blocks.length ≠ 1 := by
    rw [only]
    simp
  rw [endPhase, Computation.bind_run, Computation.get_run]
  simp only [if_neg one_open]
  rw [Computation.bind_run, takes]
  simp only [Computation.bind_run]
  rcases generateSequences _ _ with ⟨_ | sequences, last⟩ <;> rfl

/-- A phase that comes of a session when its body has ended: the one open block is sealed as
its tree, and its sequences are generated from it. -/
structure EndsAs (session : Session) (kind : PhaseKind) (block : OpenBlock) (phase : Phase) :
    Prop where
  named : phase.kind = kind
  only : session.blocks = [block]
  root : block.id = BlockId.root
  fits : session.admissible block = .ok ()
  sealed : phase.block = (block.flushed session.currentSection).toBlock
  generated : ∃ last, generateSequences phase.block
    (session.withoutPhaseBlock (block.flushed session.currentSection)) =
      (.ok phase.sequences, last)

theorem endPhase_ok {outcome : Except Fault Unit} {phase : Phase}
    (run : endPhase kind outcome session = (.ok phase, after)) :
    outcome = .ok () ∧ ∃ block, EndsAs session kind block phase := by
  cases outcome with
  | error fault =>
      obtain ⟨_, _, _, run⟩ := Computation.bind_ok_iff.mp run
      cases run
  | ok _ =>
      obtain ⟨held, _, here, run⟩ := Computation.bind_ok_iff.mp run
      cases here
      by_cases open_blocks : session.blocks.length ≠ 1
      · simp only [if_pos open_blocks] at run
        obtain ⟨_, _, _, run⟩ := Computation.bind_ok_iff.mp run
        obtain ⟨_, _, failed, _⟩ := Computation.bind_ok_iff.mp run
        cases failed
      · simp only [if_neg open_blocks] at run
        obtain ⟨block, only⟩ := List.length_eq_one_iff.mp (Decidable.not_not.mp open_blocks)
        obtain ⟨sealed, _, taken, run⟩ := Computation.bind_ok_iff.mp run
        obtain ⟨sequences, last, generated, run⟩ := Computation.bind_ok_iff.mp run
        obtain ⟨_, _, _, run⟩ := Computation.bind_ok_iff.mp run
        cases run
        obtain ⟨root, fits, rfl, rfl⟩ := (takePhaseBlock_ok_iff only).mp taken
        exact ⟨rfl, block, rfl, only, root, fits, rfl, last, generated⟩

/-- The phase is what ending it gives, and nothing is drawn besides what its sequences take. -/
theorem EndsAs.run {block : OpenBlock} {phase : Phase} (ends : EndsAs session kind block phase) :
    ∃ last, generateSequences phase.block
        (session.withoutPhaseBlock (block.flushed session.currentSection)) =
          (.ok phase.sequences, last) ∧
      endPhase kind (.ok ()) session =
        (.ok phase, (Action.remark (.phaseGenerated kind phase.sequences.length) last).2) := by
  obtain ⟨rfl, only, root, fits, sealed, last, generated⟩ := ends
  refine ⟨last, generated, ?_⟩
  rw [endPhase_run only root fits, ← sealed, generated]

end Session

namespace Act

/-- What is done for a phase before its body. -/
def startPhase (kind : PhaseKind) : Act ε Unit := do
  session (Action.remark (.phaseStarted kind))
  session (Session.beginPhase kind)

/-- A phase is begun, its body is run, and the phase ends as its body has ended. -/
theorem runPhase_eq (kind : PhaseKind) (body : Act ε Unit) :
    runPhase kind body = (startPhase kind >>= fun _ => attempt body >>=
      fun outcome => session (Session.endPhase kind outcome)) := by
  rw [runPhase, startPhase, bind_assoc]

theorem runPhase_begun {kind : PhaseKind} {body : Act ε Unit} {studio begun ended : Studio ε}
    {outcome : Except Fault Unit} (starts : startPhase kind studio = (.ok (), begun))
    (ran : body begun = (outcome, ended)) :
    runPhase kind body studio = session (Session.endPhase kind outcome) ended := by
  rw [runPhase_eq, Computation.bind_run, starts]
  show (attempt body >>= _) begun = _
  rw [Computation.bind_run, attempt, ran]

/-- The body of a phase begins in a session that runs, with the block of the phase open. -/
theorem startPhase_ok {kind : PhaseKind} {studio begun : Studio ε}
    (closed : studio.session.blocks = []) (start : startPhase kind studio = (.ok (), begun)) :
    begun.session.lifecycle.isRunning = true ∧
      begun.session.blocks = [{ id := BlockId.root, kind := .sequence }] := by
  obtain ⟨_, remarked, here, begins⟩ := Computation.bind_ok_iff.mp start
  have still_closed : remarked.session.blocks = [] := by
    cases here
    exact closed
  obtain ⟨_, _, running, same⟩ := Session.beginPhase_ok still_closed (session_ok begins)
  rw [same]
  exact ⟨running, rfl⟩

/-- **The way to a phase.**  Its body has ended without a fault, with only the block of the
phase open. -/
theorem runPhase_ok {kind : PhaseKind} {body : Act ε Unit} {studio after : Studio ε}
    {phase : Phase} (run : runPhase kind body studio = (.ok phase, after)) :
    ∃ begun ended block, startPhase kind studio = (.ok (), begun) ∧
      body begun = (.ok (), ended) ∧ Session.EndsAs ended.session kind block phase := by
  obtain ⟨_, remarked, here, run⟩ := Computation.bind_ok_iff.mp run
  obtain ⟨_, begun, begins, run⟩ := Computation.bind_ok_iff.mp run
  obtain ⟨outcome, ended, attempted, run⟩ := Computation.bind_ok_iff.mp run
  obtain ⟨succeeded, block, ends⟩ := Session.endPhase_ok (session_ok run)
  refine ⟨begun, ended, block, Computation.bind_ok_iff.mpr ⟨_, _, here, begins⟩, ?_, ends⟩
  cases attempted
  exact Prod.ext succeeded rfl

/-- The studio when the body of a phase begins. -/
def bodyStart (kind : PhaseKind) (studio : Studio ε) : Studio ε :=
  (startPhase kind studio).2

/-- The studio when the body of a phase has ended. -/
def bodyEnd (kind : PhaseKind) (body : Act ε Unit) (studio : Studio ε) : Studio ε :=
  (body (bodyStart kind studio)).2

theorem bodyStart_blocks {kind : PhaseKind} {body : Act ε Unit} {studio after : Studio ε}
    {phase : Phase} (closed : studio.session.blocks = [])
    (run : runPhase kind body studio = (.ok phase, after)) :
    (bodyStart kind studio).session.blocks = [{ id := BlockId.root, kind := .sequence }] := by
  obtain ⟨begun, _, _, starts, _, _⟩ := runPhase_ok run
  rw [bodyStart, starts]
  exact (startPhase_ok closed starts).2

theorem runPhase_ends {kind : PhaseKind} {body : Act ε Unit} {studio after : Studio ε}
    {phase : Phase} (run : runPhase kind body studio = (.ok phase, after)) :
    ∃ block, Session.EndsAs (bodyEnd kind body studio).session kind block phase := by
  obtain ⟨begun, ended, block, starts, ends, phase_is⟩ := runPhase_ok run
  refine ⟨block, ?_⟩
  rw [bodyEnd, bodyStart, starts, ends]
  exact phase_is

/-- A phase leaves the random source as generating its sequences has left it. -/
theorem runPhase_random {kind : PhaseKind} {body : Act ε Unit} {studio after : Studio ε}
    {phase : Phase} (run : runPhase kind body studio = (.ok phase, after)) :
    ∃ block last, Session.EndsAs (bodyEnd kind body studio).session kind block phase ∧
      Session.generateSequences phase.block
        ((bodyEnd kind body studio).session.withoutPhaseBlock
          (block.flushed (bodyEnd kind body studio).session.currentSection)) =
        (.ok phase.sequences, last) ∧
      after.session.engine.random = last.engine.random := by
  obtain ⟨begun, ended, block, starts, ran, phase_is⟩ := runPhase_ok run
  have at_end : bodyEnd kind body studio = ended := by
    rw [bodyEnd, bodyStart, starts, ran]
  obtain ⟨last, generated, ends⟩ := phase_is.run
  rw [runPhase_begun starts ran] at run
  have same := (session_ok run).symm.trans ends
  rw [at_end]
  exact ⟨block, last, phase_is, generated, congrArg (fun ended => ended.2.engine.random) same⟩

end Act
end TestProgram
