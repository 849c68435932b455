/-
# TestProgram.Proofs.FailedBlocks -- what a failed block leaves on the stack

A block that fails is thrown away with everything that was left open inside it.  Its body may
open and close blocks, declare labels, write, add calls and recover from failures; as long as it
closes only blocks that it has opened itself (`Session.ClosesOwn`), the blocks that were open
before stay below all that it does (`Session.StandsOn`).  So the end of the failed block finds
them where they were.

They are not quite as they were.  A block that opens takes over the labels and outputs that wait
in the one around it, and nothing brings them back when it is thrown away: they are lost.  A
failed block leaves the stack exactly as it was if and only if nothing was waiting in the
innermost block when it was opened (`failed_block_leaves`).
-/
import TestProgram.Proofs.Operations

namespace TestProgram

set_option autoImplicit false

/-! ## Own blocks -/

/-- The handle that an operation gets, if it gets one. -/
def Operation.obtained (session : Session) : Operation → List BlockHandle
  | .openBlock kind options location =>
      (Session.openBlock kind options location session).1.toOption.toList
  | _ => []

/-- Of the blocks whose handles are held, and of those opened on the way, operations may close
any; they close no others. -/
def Session.ClosesOwn (held : List BlockHandle) (session : Session) : List Operation → Prop
  | [] => True
  | operation :: rest =>
      (∀ handle ∈ operation.handle?, handle ∈ held) ∧
        Session.ClosesOwn (held ++ operation.obtained session) (operation.perform session).2 rest

/-- The body does operations that close no blocks but those it has opened itself. -/
def Act.ClosesOwn {ε α : Type} (body : Act ε α) (studio : Studio ε) : Prop :=
  ∃ operations, Act.Performs body studio operations ∧ studio.session.ClosesOwn [] operations

namespace Session

/-- Some blocks are open, and below them these. -/
def StandsOn (session : Session) (base : List OpenBlock) : Prop :=
  ∃ inner, inner ≠ [] ∧ session.blocks = inner ++ base

variable {session : Session} {base : List OpenBlock}

theorem StandsOn.length_lt (stands : session.StandsOn base) :
    base.length < session.blocks.length := by
  obtain ⟨inner, filled, stack⟩ := stands
  have some_inner : 0 < inner.length := List.length_pos_iff.mpr filled
  rw [stack, List.length_append]
  omega

theorem StandsOn.ne_nil (stands : session.StandsOn base) : session.blocks ≠ [] := by
  have more := stands.length_lt
  intro none_open
  rw [none_open, List.length_nil] at more
  omega

theorem standsOn_cons {top : OpenBlock} (stack : session.blocks = top :: base) :
    session.StandsOn base :=
  ⟨[top], List.cons_ne_nil _ _, stack⟩

/-- The blocks that are left when the innermost ones go, as long as one stays above the base. -/
theorem standsOn_drop {after : Session} (stands : session.StandsOn base) (count : Nat)
    (dropped : after.blocks = session.blocks.drop count)
    (stays : base.length + count < session.blocks.length) : after.StandsOn base := by
  obtain ⟨inner, _, stack⟩ := stands
  have few : count < inner.length := by
    rw [stack, List.length_append] at stays
    omega
  refine ⟨inner.drop count, ?_, ?_⟩
  · intro all_gone
    have none_left : inner.length ≤ count := List.drop_eq_nil_iff.mp all_gone
    omega
  · rw [dropped, stack, List.drop_append_of_le_length (Nat.le_of_lt few)]

theorem discardAbove_standsOn {depth : Nat} (stands : session.StandsOn base)
    (above : base.length < depth) : (session.discardAbove depth).StandsOn base := by
  have more := stands.length_lt
  apply standsOn_drop stands _ rfl
  omega

/-- Discarding everything above the base leaves the base. -/
theorem discardAbove_base (stands : session.StandsOn base) :
    (session.discardAbove base.length).blocks = base := by
  obtain ⟨inner, _, stack⟩ := stands
  have count : session.blocks.length - base.length = inner.length := by
    rw [stack, List.length_append, Nat.add_sub_cancel]
  show session.blocks.drop (session.blocks.length - base.length) = base
  rw [count, stack, List.drop_left]

/-- A block that is closed above the base leaves one open above it: the one it was opened in. -/
theorem closeBlock_standsOn {handle : BlockHandle} (stands : session.StandsOn base)
    (above : base.length < handle.depth) : (closeBlock handle session).2.StandsOn base := by
  have below : ∀ {top : OpenBlock} {outer : List OpenBlock}, session.blocks = top :: outer →
      outer.length = handle.depth → StandsOn { session with blocks := outer } base := by
    intro top outer stack height
    apply standsOn_drop stands 1
    · rw [stack, List.drop_one, List.tail_cons]
    · rw [stack, List.length_cons]
      omega
  rcases run : closeBlock handle session with ⟨outcome, after⟩
  cases closeBlock_closing run with
  | refused fault => exact stands
  | dropped fault stack height => exact below stack height
  | sealed stack height fits registry hung =>
      obtain ⟨inner, filled, around⟩ := below stack height
      obtain ⟨parent, inside, rfl⟩ := List.exists_cons_of_ne_nil filled
      have outer_is : _ = parent :: inside ++ base := around
      subst outer_is
      exact ⟨_ :: inside, List.cons_ne_nil _ _, hung⟩

/-- The handle of a block that opens stands for a place above all blocks that are open. -/
theorem depth_of_openBlock {kind : BlockKind} {options : BlockOptions}
    {location : Option Location} {handle : BlockHandle} {after : Session}
    (opens : openBlock kind options location session = (.ok handle, after)) :
    handle.depth = session.blocks.length := by
  unfold openBlock at opens
  cases stack : session.blocks with
  | nil =>
      by_cases running : session.lifecycle.isRunning = true
      · simp only [stack, if_pos running] at opens
        cases opens
        rfl
      · simp only [stack, if_neg running] at opens
        cases opens
  | cons parent outer =>
      simp only [stack] at opens
      cases opens
      rfl

end Session

/-! ## Bodies that close their own blocks -/

theorem Session.ClosesOwn.mono {operations : List Operation} :
    ∀ {session : Session} {held more : List BlockHandle}, session.ClosesOwn held operations →
      held ⊆ more → session.ClosesOwn more operations := by
  induction operations with
  | nil => intros; trivial
  | cons operation rest ih =>
      rintro session held more ⟨closes, later⟩ wider
      refine ⟨fun handle named => wider (closes handle named), ih later ?_⟩
      exact List.append_subset.mpr
        ⟨List.Subset.trans wider (List.subset_append_left _ _), List.subset_append_right _ _⟩

theorem Session.ClosesOwn.append {further : List Operation} {own : List BlockHandle}
    {operations : List Operation} :
    ∀ {session : Session} {held : List BlockHandle}, session.ClosesOwn held operations →
      own ⊆ held → (session.after operations).ClosesOwn own further →
      session.ClosesOwn held (operations ++ further) := by
  induction operations with
  | nil => exact fun _ within later => later.mono within
  | cons operation rest ih =>
      rintro session held ⟨closes, here⟩ within later
      refine ⟨closes, ih here ?_ later⟩
      exact List.Subset.trans within (List.subset_append_left _ _)

namespace Act

variable {ε α β : Type} {studio : Studio ε}

theorem closesOwn_throw (fault : Fault) : ClosesOwn (throw fault : Act ε α) studio :=
  ⟨[], rfl, trivial⟩

theorem closesOwn_operation (operation : Operation) (closes_none : operation.handle? = none) :
    ClosesOwn (session operation.perform) studio := by
  refine ⟨[operation], rfl, ?_, trivial⟩
  rw [closes_none]
  intro _ named
  cases named

theorem ClosesOwn.attempt {body : Act ε α} (own : ClosesOwn body studio) :
    ClosesOwn (attempt body) studio :=
  own

theorem ClosesOwn.bind {first : Act ε α} {next : α → Act ε β} (here : ClosesOwn first studio)
    (there : ∀ value after, first studio = (.ok value, after) → ClosesOwn (next value) after) :
    ClosesOwn (first >>= next) studio := by
  obtain ⟨operations, performs, own⟩ := here
  rw [Performs] at performs
  rcases run : first studio with ⟨_ | value, after⟩
  · refine ⟨operations, ?_, own⟩
    rw [Performs, Computation.bind_run, run]
    exact (congrArg (fun ended => ended.2.session) run).symm.trans performs
  · obtain ⟨further, also_performs, also_own⟩ := there value after run
    have reached : after.session = studio.session.after operations :=
      (congrArg (fun ended => ended.2.session) run).symm.trans performs
    refine ⟨operations ++ further, ?_, own.append (List.Subset.refl _) (reached ▸ also_own)⟩
    rw [Performs, Computation.bind_run, run, Session.after_append, ← reached]
    exact also_performs

/-- A scoped block closes the block that it has opened, and so does what is in it. -/
theorem ClosesOwn.scopedBlock {body : Act ε Unit} {kind : BlockKind} {options : BlockOptions}
    {location : Location} (inside : studio.session.blocks ≠ [])
    (own : ∀ handle opened, session (Session.openBlock kind options (some location)) studio =
      (.ok handle, opened) → ClosesOwn body opened) :
    ClosesOwn (scopedBlock kind options location body) studio := by
  obtain ⟨top, outer, stack⟩ := Session.exists_innermost inside
  have opens := Session.openBlock_run kind options (some location) stack
  generalize handle_is : (⟨top.id.child top.children.length, (top :: outer).length⟩ :
    BlockHandle) = handle at opens
  generalize opened_is : ({ studio.session with blocks := _ } : Session) = opened at opens
  have opened_as : session (Session.openBlock kind options (some location)) studio =
      (.ok handle, { studio with session := opened }) := by
    simp only [session, opens]
  have reached : ((Operation.openBlock kind options (some location)).perform
      studio.session).2 = opened :=
    congrArg Prod.snd (Computation.bind_ok_iff.mpr ⟨_, _, opens, rfl⟩)
  have got : (Operation.openBlock kind options (some location)).obtained studio.session =
      [handle] := by
    rw [Operation.obtained, opens]
    rfl
  have deep : 0 < handle.depth := by
    rw [← handle_is]
    exact Nat.succ_pos _
  obtain ⟨operations, performs, closes⟩ := own handle _ opened_as
  refine ⟨.openBlock kind options (some location) :: (operations ++
    [.leaveBlock handle deep location (body { studio with session := opened }).1]), ?_, ?_, ?_⟩
  · rw [Performs, Act.scopedBlock, Computation.bind_run, opened_as, Session.after_cons, reached,
      Session.after_append, ← show (body { studio with session := opened }).2.session = _
        from performs]
    rfl
  · intro _ named
    cases named
  · rw [got, reached]
    refine Session.ClosesOwn.append (closes.mono (List.nil_subset _)) (List.Subset.refl _) ?_
    refine ⟨?_, trivial⟩
    intro _ named
    cases named
    exact List.mem_singleton_self _

end Act

/-! ## Runs -/

section Bodies

variable {session : Session} {base : List OpenBlock}

theorem Operation.depth_of_obtained {operation : Operation} {handle : BlockHandle}
    (got : handle ∈ operation.obtained session) : handle.depth = session.blocks.length := by
  cases operation with
  | openBlock kind options location =>
      rcases opens : Session.openBlock kind options location session with ⟨_ | obtained, after⟩
      · rw [Operation.obtained, opens] at got
        cases got
      · rw [Operation.obtained, opens] at got
        obtain rfl : handle = obtained := by simpa [Except.toOption] using got
        exact Session.depth_of_openBlock opens
  | _ => cases got

/-- The operations that close no block leave all blocks open and change the innermost only. -/
theorem Operation.Step.standsOn {top : OpenBlock} {outer : List OpenBlock}
    {operation : Operation} {outcome : Except Fault Unit} {after : Session}
    (step : operation.Step session top outer outcome after.blocks)
    (closes_none : operation.handle? = none) (stack : session.blocks = top :: outer)
    (stands : session.StandsOn base) : after.StandsOn base := by
  obtain ⟨inner, filled, whole⟩ := stands
  obtain ⟨first, rest, rfl⟩ := List.exists_cons_of_ne_nil filled
  obtain ⟨rfl, rfl⟩ : top = first ∧ outer = rest ++ base :=
    List.cons.inj (stack.symm.trans whole)
  generalize result : after.blocks = blocks at step
  cases step with
  | opened kind options location =>
      exact ⟨_ :: _ :: rest, List.cons_ne_nil _ _, result⟩
  | sealed closes _ => cases closes_none.symm.trans closes
  | refused _ closes _ _ => cases closes_none.symm.trans closes
  | _ => exact ⟨_ :: rest, List.cons_ne_nil _ _, result⟩

/-- One step: an operation that closes nothing of the base keeps the base. -/
theorem Operation.standsOn (operation : Operation) (stands : session.StandsOn base)
    (above : ∀ handle ∈ operation.handle?, base.length < handle.depth) :
    (operation.perform session).2.StandsOn base := by
  obtain ⟨top, outer, stack⟩ := Session.exists_innermost stands.ne_nil
  have step := operation.step stack
  cases operation with
  | closeBlock handle inside =>
      have closed : ((Operation.closeBlock handle inside).perform session).2 =
          (Session.closeBlock handle session).2 := by
        rw [Operation.perform, Computation.bind_run]
        rcases Session.closeBlock handle session with ⟨_ | _, _⟩ <;> rfl
      rw [closed]
      exact Session.closeBlock_standsOn stands (above handle rfl)
  | leaveBlock handle inside location body =>
      have deep : base.length < handle.depth := above handle rfl
      cases body with
      | error fault => exact Session.discardAbove_standsOn stands deep
      | ok _ =>
          show ((Session.closeBlock handle session).2.discardAbove handle.depth).StandsOn base
          exact Session.discardAbove_standsOn (Session.closeBlock_standsOn stands deep) deep
  | _ => exact step.standsOn rfl stack stands

/-- The whole run: as long as only own blocks are closed, those below stay. -/
theorem Session.after_standsOn (operations : List Operation) (stands : session.StandsOn base)
    {held : List BlockHandle} (own : session.ClosesOwn held operations)
    (above : ∀ handle ∈ held, base.length < handle.depth) :
    (session.after operations).StandsOn base := by
  induction operations generalizing session held with
  | nil => exact stands
  | cons operation rest ih =>
      obtain ⟨closes, later⟩ := own
      have stays : (operation.perform session).2.StandsOn base :=
        operation.standsOn stands (fun handle named => above handle (closes handle named))
      refine ih stays later ?_
      intro handle listed
      rcases List.mem_append.mp listed with before | got
      · exact above handle before
      · rw [Operation.depth_of_obtained got]
        exact stands.length_lt

end Bodies

/-! ## The end of a failed block -/

/-- The block when what waited in it has been taken over by another. -/
def OpenBlock.handedOver (block : OpenBlock) : OpenBlock :=
  { block with labels := [], outputs := [] }

/-- The block has labels or outputs that wait for a call. -/
def OpenBlock.Waits (block : OpenBlock) : Prop :=
  block.labels ≠ [] ∨ block.outputs ≠ []

instance (block : OpenBlock) : Decidable block.Waits :=
  inferInstanceAs (Decidable (_ ∨ _))

theorem OpenBlock.handedOver_eq_iff {block : OpenBlock} :
    block.handedOver = block ↔ ¬ block.Waits := by
  obtain ⟨_, _, _, _, _, labels, outputs⟩ := block
  simp [OpenBlock.handedOver, OpenBlock.Waits, eq_comm]

namespace Session

theorem openBlock_stands {session opened : Session} {kind : BlockKind} {options : BlockOptions}
    {location : Option Location} {handle : BlockHandle}
    (opens : openBlock kind options location session = (.ok handle, opened)) :
    opened.StandsOn (session.blocks.modifyHead OpenBlock.handedOver) := by
  unfold openBlock at opens
  cases stack : session.blocks with
  | nil =>
      by_cases running : session.lifecycle.isRunning = true
      · simp only [stack, if_pos running] at opens
        cases opens
        exact standsOn_cons rfl
      · simp only [stack, if_neg running] at opens
        cases opens
  | cons parent outer =>
      simp only [stack] at opens
      cases opens
      exact standsOn_cons rfl

theorem openBlock_error {session after : Session} {kind : BlockKind} {options : BlockOptions}
    {location : Option Location} {fault : Fault}
    (fails : openBlock kind options location session = (.error fault, after)) :
    session.blocks = [] ∧ after = session := by
  unfold openBlock at fails
  cases stack : session.blocks with
  | nil =>
      by_cases running : session.lifecycle.isRunning = true
      · simp only [stack, if_pos running] at fails
        cases fails
      · simp only [stack, if_neg running] at fails
        cases fails
        exact ⟨rfl, rfl⟩
  | cons parent outer =>
      simp only [stack] at fails
      cases fails

/-- A scoped block that does not end well leaves what it stands on. -/
theorem leaveBlock_error {session after : Session} {base : List OpenBlock} {handle : BlockHandle}
    {location : Location} {body : Except Fault Unit} {fault : Fault}
    (stands : session.StandsOn base) (depth : handle.depth = base.length)
    (fails : leaveBlock handle location body session = (.error fault, after)) :
    after.blocks = base := by
  cases body with
  | error cause =>
      cases fails
      rw [depth]
      exact discardAbove_base stands
  | ok _ =>
      rcases run : closeBlock handle session with ⟨outcome, closed⟩
      simp only [leaveBlock, run] at fails
      have left : closed.discardAbove handle.depth = after := congrArg Prod.snd fails
      rw [← left, depth]
      cases closeBlock_closing run with
      | refused cause => exact discardAbove_base stands
      | dropped cause stack height =>
          -- The block is gone already, since it was not admissible.
          rename_i top outer
          obtain ⟨inner, _, whole⟩ := stands
          have suffix : base <:+ top :: outer := ⟨inner, (stack.symm.trans whole).symm⟩
          have rest : outer = base := by
            rcases List.suffix_cons_iff.mp suffix with whole_stack | inside
            · have same_length := congrArg List.length whole_stack
              rw [List.length_cons] at same_length
              omega
            · exact (inside.eq_of_length (depth.symm.trans height.symm)).symm
          show outer.drop (outer.length - base.length) = base
          rw [rest, Nat.sub_self, List.drop_zero]
      | sealed stack height fits registry hung => cases congrArg Prod.fst fails

end Session

theorem Act.session_outcome {ε α : Type} {body : Action α} {studio after : Studio ε}
    {outcome : Except Fault α} (run : Act.session body studio = (outcome, after)) :
    body studio.session = (outcome, after.session) := by
  cases run
  rfl

/-- **What a failed block leaves.**  A scoped block that fails, wherever the failure comes from,
leaves the blocks that were open before it, with their children; but the innermost of them has
lost its waiting labels and outputs.  So the stack is as it was exactly if none were waiting. -/
theorem failed_block_leaves {ε : Type} (studio after : Studio ε) (kind : BlockKind)
    (options : BlockOptions) (location : Location) (body : Act ε Unit) (fault : Fault)
    (own : ∀ handle opened, Act.session (Session.openBlock kind options (some location)) studio =
      (.ok handle, opened) → Act.ClosesOwn body opened)
    (fails : Act.scopedBlock kind options location body studio = (.error fault, after)) :
    after.session.blocks = studio.session.blocks.modifyHead OpenBlock.handedOver ∧
      (after.session.blocks = studio.session.blocks ↔
        ∀ innermost ∈ studio.session.blocks.head?, ¬ innermost.Waits) := by
  have left : after.session.blocks =
      studio.session.blocks.modifyHead OpenBlock.handedOver := by
    rw [Act.scopedBlock, Computation.bind_run] at fails
    rcases opens : Session.openBlock kind options (some location) studio.session with
      ⟨cause | handle, opened⟩
    · have opened_not : Act.session (Session.openBlock kind options (some location)) studio =
          (.error cause, { studio with session := opened }) := by
        simp only [Act.session, opens]
      rw [opened_not] at fails
      cases fails
      obtain ⟨none_open, same⟩ := Session.openBlock_error opens
      rw [none_open]
      exact (congrArg Session.blocks same).trans none_open
    · have opened_as : Act.session (Session.openBlock kind options (some location)) studio =
          (.ok handle, { studio with session := opened }) := by
        simp only [Act.session, opens]
      obtain ⟨operations, performs, closes⟩ := own handle _ opened_as
      have stands : (body { studio with session := opened }).2.session.StandsOn
          (studio.session.blocks.modifyHead OpenBlock.handedOver) := by
        rw [show (body { studio with session := opened }).2.session = _ from performs]
        exact Session.after_standsOn operations (Session.openBlock_stands opens) closes
          (fun _ listed => absurd listed List.not_mem_nil)
      have depth : handle.depth =
          (studio.session.blocks.modifyHead OpenBlock.handedOver).length := by
        rw [List.length_modifyHead]
        exact Session.depth_of_openBlock opens
      rw [opened_as] at fails
      have leaves : Act.session (Session.leaveBlock handle location
          (body { studio with session := opened }).1) (body { studio with session := opened }).2 =
            (.error fault, after) := fails
      exact Session.leaveBlock_error stands depth (Act.session_outcome leaves)
  refine ⟨left, ?_⟩
  rw [left]
  cases studio.session.blocks with
  | nil => simp
  | cons innermost outer =>
      simp only [List.modifyHead_cons, List.head?_cons, List.cons.injEq, and_true,
        OpenBlock.handedOver_eq_iff]
      simp

/-- The first phase of a template, after some operations in its block. -/
def inFirstPhase (operations : List Operation) : Studio Unit where
  session := (Act.bodyStart .pre { session := Session.new {}, memory := () }).session.after
    operations
  memory := ()

/-- A body that declares a label, recovers from a failed block inside, and fails. -/
def failing (location : Location) : Act Unit Unit := do
  Act.session (Operation.declare (.label "inside") location).perform
  let _ ← Act.attempt (Act.scopedBlock .atomic {} location (throw (Fault.of .unnamedSection)))
  throw (Fault.of .unnamedSection)

theorem closesOwn_failing (location : Location) {studio : Studio Unit}
    (inside : studio.session.blocks ≠ []) : Act.ClosesOwn (failing location) studio := by
  refine (Act.closesOwn_operation _ rfl).bind (fun _ declared declares => ?_)
  have still_inside : declared.session.blocks ≠ [] := by
    have reached : declared.session =
        studio.session.after [.declare (.label "inside") location] :=
      congrArg (fun run => run.2.session) declares.symm
    rw [reached]
    exact Session.after_ne_nil inside _
  refine (Act.ClosesOwn.attempt (Act.ClosesOwn.scopedBlock still_inside ?_)).bind ?_
  · exact fun _ _ _ => Act.closesOwn_throw _
  · exact fun _ _ _ => Act.closesOwn_throw _

/-- After a call nothing waits, and a block that fails leaves no trace. -/
theorem failed_block_leaves_after_call :
    let studio := inFirstPhase [.addCall { name := "nop" } (.caller "first" 1 1)]
    (Act.scopedBlock .free {} (.caller "first" 2 1) (failing (.caller "first" 3 1))
      studio).2.session.blocks = studio.session.blocks := by
  intro studio
  have leaves := failed_block_leaves studio _ .free {} (.caller "first" 2 1)
    (failing (.caller "first" 3 1)) ((Fault.of .unnamedSection).locate (.caller "first" 2 1))
    (fun handle opened opens => closesOwn_failing _ (by
      cases opens
      exact List.cons_ne_nil _ _)) rfl
  exact leaves.2.mpr (by decide)

/-- A label that waits for a call is lost with the block that has taken it over, so a failed
block can leave a trace. -/
theorem waiting_label_lost :
    ¬ ∀ (studio after : Studio Unit) (kind : BlockKind) (options : BlockOptions)
      (location : Location) (body : Act Unit Unit) (fault : Fault),
      (∀ handle opened, Act.session (Session.openBlock kind options (some location)) studio =
        (.ok handle, opened) → Act.ClosesOwn body opened) →
      Act.scopedBlock kind options location body studio = (.error fault, after) →
        after.session.blocks = studio.session.blocks := by
  intro always
  have same := always (inFirstPhase [.declare (.label "here") (.caller "first" 1 1)]) _ .free {}
    (.caller "first" 2 1) (throw (Fault.of .unnamedSection)) _
    (fun _ _ _ => Act.closesOwn_throw _) rfl
  have waiting := congrArg (fun blocks => blocks.flatMap OpenBlock.labels) same
  exact absurd waiting (by decide)

end TestProgram
