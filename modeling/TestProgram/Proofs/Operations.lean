/-
# TestProgram.Proofs.Operations -- what bodies do to the open blocks of a session

Whatever a body computes, decides and recovers from on its way, what it does to the session is a
sequence of operations: it opens and closes blocks, adds calls, declares labels, writes texts and
comments, and does other things that leave the blocks as they are (`Operation`).  A body
`Performs` a sequence if the session comes out the same, and bodies that are put together from
operations perform some (`Act.Contextual`).  Operations that fail are part of the sequence, since
a body may go on after them.

What an operation can do to the stack of open blocks is said once, in `Operation.Step`: which
block comes to stand on it, which leaves it, and what the innermost one takes up.  Everything
about the trees of phases is proved from these cases.
-/
import TestProgram.Proofs.PhaseRuns
import TestProgram.Session.Calls

namespace TestProgram

set_option autoImplicit false

/-! ## Operations -/

inductive Declaration
  | label (name : String)
  | globalLabel (name : String)
  | weakLabel (name : String)
  | numericLabel (index : Int)

namespace Declaration

def perform (location : Location) : Declaration → Action Unit
  | .label name => Session.declareLabel name location
  | .globalLabel name => Session.declareGlobalLabel name location
  | .weakLabel name => Session.declareWeakLabel name location
  | .numericLabel index => Session.declareNumericLabel index location

/-- The label that is declared in a scope; there is none for a number that is not a slot. -/
def label? (scope : BlockId) : Declaration → Option Label
  | .label name => some { name := .named name, scope }
  | .globalLabel name => some { name := .named name, isGlobal := true, scope }
  | .weakLabel name => some { name := .named name, isWeak := true, scope }
  | .numericLabel index =>
      (NumericSlot.ofInt index).toOption.map (fun slot => { name := .numeric slot, scope })

theorem scope_of_label? {declaration : Declaration} {scope : BlockId} {label : Label}
    (made : declaration.label? scope = some label) : label.scope = scope := by
  cases declaration with
  | numericLabel index =>
      obtain ⟨slot, _, rfl⟩ := Option.map_eq_some_iff.mp made
      rfl
  | _ =>
      cases made
      rfl

end Declaration

/-- What a body does to a session.  The block of the phase has no handle in its body: those
that a body gets stand for blocks inside. -/
inductive Operation
  | openBlock (kind : BlockKind) (options : BlockOptions) (location : Option Location)
  | closeBlock (handle : BlockHandle) (inside : 0 < handle.depth)
  /-- The end of a scoped block whose body has ended so. -/
  | leaveBlock (handle : BlockHandle) (inside : 0 < handle.depth) (location : Location)
      (body : Except Fault Unit)
  | addCall (call : Call) (location : Location)
  | declare (declaration : Declaration) (location : Location)
  | write (output : Output) (location : Location)
  /-- Anything that leaves the open blocks as they are. -/
  | aside (change : Session → Session) (apart : ∀ session, (change session).blocks = session.blocks)

namespace Operation

def perform : Operation → Action Unit
  | .openBlock kind options location => do
      let _ ← Session.openBlock kind options location
  | .closeBlock handle _ => do
      let _ ← Session.closeBlock handle
  | .leaveBlock handle _ location body => Session.leaveBlock handle location body
  | .addCall call location => Session.addCall call location
  | .declare declaration location => declaration.perform location
  | .write (.text content) location => Session.addText content location
  | .write (.comment content) location => Session.addComment content location
  | .aside change _ => modify change

/-- The handle of the block that is to be closed. -/
def handle? : Operation → Option BlockHandle
  | .closeBlock handle _ => some handle
  | .leaveBlock handle _ _ _ => some handle
  | _ => none

end Operation

/-- The session after a sequence of operations; one that fails does not end it. -/
def Session.after (session : Session) (operations : List Operation) : Session :=
  operations.foldl (fun session operation => (operation.perform session).2) session

namespace Session

@[simp] theorem after_nil (session : Session) : session.after [] = session := rfl

@[simp] theorem after_cons (session : Session) (operation : Operation)
    (operations : List Operation) :
    session.after (operation :: operations) =
      Session.after (operation.perform session).2 operations := rfl

@[simp] theorem after_append (session : Session) (first second : List Operation) :
    session.after (first ++ second) = (session.after first).after second :=
  List.foldl_append

end Session

/-! ## Steps -/

section Steps

variable {session : Session} {top : OpenBlock} {outer : List OpenBlock}

/-- What an operation can do to a stack of open blocks, with its outcome. -/
inductive Operation.Step (session : Session) (top : OpenBlock) (outer : List OpenBlock) :
    Operation → Except Fault Unit → List OpenBlock → Prop
  /-- A block is opened and takes over what waits. -/
  | opened (kind : BlockKind) (options : BlockOptions) (location : Option Location) :
      Step session top outer (.openBlock kind options location) (.ok ())
        ({ id := top.id.child top.children.length, kind, options, location
           labels := top.labels, outputs := top.outputs } ::
          { top with labels := [], outputs := [] } :: outer)
  /-- The innermost block is sealed and hung into the one around it. -/
  | sealed {operation : Operation} {handle : BlockHandle} {parent : OpenBlock}
      {rest : List OpenBlock} (closes : operation.handle? = some handle)
      (inside : outer = parent :: rest) :
      Step session top outer operation (.ok ())
        ({ parent with children :=
            parent.children ++ [(top.flushed session.currentSection).toBlock.toTree] } :: rest)
  /-- A block is not closed as it should be; some of the innermost ones may be gone. -/
  | refused {operation : Operation} {handle : BlockHandle} {kept : List OpenBlock} (fault : Fault)
      (closes : operation.handle? = some handle) (suffix : kept <:+ top :: outer)
      (inside : kept ≠ []) :
      Step session top outer operation (.error fault) kept
  | appended (call : Call) (location : Location) :
      Step session top outer (.addCall call location) (.ok ())
        (Session.OpenBlock.append top (session.completeCall
          { call with location := some (call.location.getD location) }) :: outer)
  | declared (declaration : Declaration) (location : Location) {label : Label}
      (made : declaration.label? top.id = some label) :
      Step session top outer (.declare declaration location) (.ok ())
        ({ top with labels := top.labels ++ [label] } :: outer)
  | undeclared (declaration : Declaration) (location : Location) (fault : Fault)
      (none : declaration.label? top.id = none) :
      Step session top outer (.declare declaration location) (.error fault) (top :: outer)
  | written (output : Output) (location : Location) :
      Step session top outer (.write output location) (.ok ())
        ({ top with outputs := top.outputs ++ [output] } :: outer)
  | aside (change : Session → Session)
      (apart : ∀ session, (change session).blocks = session.blocks) :
      Step session top outer (.aside change apart) (.ok ()) (top :: outer)

namespace Session

theorem inBlock_run (what : String) (change : OpenBlock → OpenBlock)
    (stack : session.blocks = top :: outer) :
    inBlock what change session = (.ok (), { session with blocks := change top :: outer }) := by
  simp only [inBlock, stack]

theorem locating_run {α : Type} {location : Location} {body : Action α} {value : α}
    {after : Session} (run : body session = (.ok value, after)) :
    Action.locating location body session = (.ok value, after) := by
  simp only [Action.locating, run]
  rfl

theorem openBlock_run (kind : BlockKind) (options : BlockOptions) (location : Option Location)
    (stack : session.blocks = top :: outer) :
    openBlock kind options location session =
      (.ok ⟨top.id.child top.children.length, (top :: outer).length⟩,
        { session with blocks :=
          { id := top.id.child top.children.length, kind, options, location
            labels := top.labels, outputs := top.outputs } ::
          { top with labels := [], outputs := [] } :: outer }) := by
  simp only [openBlock, stack]

theorem scope_eq (stack : session.blocks = top :: outer) : session.scope = top.id := by
  simp only [scope, stack]

theorem declare_run (labelled : BlockId → Label) (what : String) (location : Location)
    (stack : session.blocks = top :: outer) :
    Action.locating location (do addLabel (labelled (← get).scope) what) session =
      (.ok (), { session with
        blocks := { top with labels := top.labels ++ [labelled top.id] } :: outer }) := by
  apply locating_run
  refine Computation.bind_ok_iff.mpr ⟨session, session, rfl, ?_⟩
  rw [scope_eq stack]
  exact inBlock_run what _ stack

/-- A declaration in an open block fails only if it has a number that is not a slot. -/
theorem declaration_cases (stack : session.blocks = top :: outer) (declaration : Declaration)
    (location : Location) :
    (∃ label, declaration.label? top.id = some label ∧
      declaration.perform location session = (.ok (), { session with
        blocks := { top with labels := top.labels ++ [label] } :: outer })) ∨
    (declaration.label? top.id = none ∧
      ∃ fault, declaration.perform location session = (.error fault, session)) := by
  cases declaration with
  | label name => exact .inl ⟨_, rfl, declare_run _ "label" location stack⟩
  | globalLabel name => exact .inl ⟨_, rfl, declare_run _ "global_label" location stack⟩
  | weakLabel name => exact .inl ⟨_, rfl, declare_run _ "weak" location stack⟩
  | numericLabel index =>
      cases slot : NumericSlot.ofInt index with
      | error fault =>
          right
          refine ⟨by simp [Declaration.label?, slot, Except.toOption], ?_⟩
          simp only [Declaration.perform, declareNumericLabel, Action.locating,
            Computation.bind_run, Action.ofExcept, slot]
          exact ⟨_, rfl⟩
      | ok number =>
          left
          refine ⟨{ name := .numeric number, scope := top.id }, ?_, ?_⟩
          · simp [Declaration.label?, slot, Except.toOption]
          · rw [Declaration.perform, declareNumericLabel]
            apply locating_run
            refine Computation.bind_ok_iff.mpr ⟨number, session, ?_, ?_⟩
            · simp only [Action.ofExcept, slot]
            · refine Computation.bind_ok_iff.mpr ⟨session, session, rfl, ?_⟩
              rw [scope_eq stack]
              exact inBlock_run "label" _ stack

/-- Whatever is open, a declaration adds one label or leaves the session as it is. -/
theorem declaration_adds (session : Session) (declaration : Declaration) (location : Location) :
    (declaration.perform location session).2 = session ∨ ∃ label what,
      (declaration.perform location session).2 = (addLabel label what session).2 := by
  cases declaration with
  | numericLabel index =>
      rw [Declaration.perform, declareNumericLabel]
      simp only [Action.locating, Computation.bind_run, Action.ofExcept]
      cases NumericSlot.ofInt index with
      | error fault => exact .inl rfl
      | ok number => exact .inr ⟨_, _, rfl⟩
  | _ => exact .inr ⟨_, _, rfl⟩

/-- All that closing a block can do to a session. -/
inductive Closing (handle : BlockHandle) (session : Session) :
    Except Fault (Block Call) → Session → Prop
  /-- The handle does not stand for the innermost block. -/
  | refused (fault : Fault) : Closing handle session (.error fault) session
  /-- The block is not admissible, and is gone all the same. -/
  | dropped {top : OpenBlock} {outer : List OpenBlock} (fault : Fault)
      (stack : session.blocks = top :: outer) (height : outer.length = handle.depth) :
      Closing handle session (.error fault) { session with blocks := outer }
  /-- The block is sealed and hung into the one around it, if there is one. -/
  | sealed {top : OpenBlock} {outer : List OpenBlock} {after : Session}
      (stack : session.blocks = top :: outer) (height : outer.length = handle.depth)
      (fits : session.admissible top = .ok ()) (registry : after.registry = session.registry)
      (hung : after.blocks = outer.modifyHead (fun parent => { parent with children :=
        parent.children ++ [(top.flushed session.currentSection).toBlock.toTree] })) :
      Closing handle session (.ok (top.flushed session.currentSection).toBlock) after

theorem closeBlock_closing {handle : BlockHandle} {outcome : Except Fault (Block Call)}
    {after : Session} (run : closeBlock handle session = (outcome, after)) :
    Closing handle session outcome after := by
  unfold closeBlock at run
  cases stack : session.blocks with
  | nil =>
      simp only [stack] at run
      cases run
      exact .refused _
  | cons top outer =>
      simp only [stack] at run
      by_cases fits : top.id = handle.id ∧ (top :: outer).length = handle.depth + 1
      · have height : outer.length = handle.depth := Nat.succ.inj fits.2
        have bare : admissible { session with blocks := outer }
            (top.flushed session.currentSection) = session.admissible top :=
          admissible_flushed _ _ _
        simp only [if_pos fits, bare] at run
        cases admitted : session.admissible top with
        | error fault =>
            simp only [admitted] at run
            cases run
            exact .dropped fault stack height
        | ok _ =>
            simp only [admitted] at run
            cases run
            refine .sealed stack height admitted ?_ ?_
            · cases outer <;> rfl
            · cases outer <;> rfl
      · simp only [if_neg fits] at run
        cases run
        exact .refused _

theorem discardAbove_suffix (depth : Nat) (session : Session) :
    (session.discardAbove depth).blocks <:+ session.blocks :=
  List.drop_suffix _ _

theorem discardAbove_ne_nil {depth : Nat} (inside : 0 < depth) (filled : session.blocks ≠ []) :
    (session.discardAbove depth).blocks ≠ [] := by
  have some_open : 0 < session.blocks.length := List.length_pos_iff.mpr filled
  have kept : (session.discardAbove depth).blocks.length =
      session.blocks.length - (session.blocks.length - depth) := List.length_drop
  apply List.length_pos_iff.mp
  omega

end Session

namespace Operation

theorem Step.ne_nil {operation : Operation} {outcome : Except Fault Unit}
    {blocks : List OpenBlock} (step : operation.Step session top outer outcome blocks) :
    blocks ≠ [] := by
  cases step with
  | refused fault closes suffix inside => exact inside
  | _ => exact List.cons_ne_nil _ _

/-- What closing a block inside does to the stack is one of the things that closing can do. -/
theorem closing_step {operation : Operation} {handle : BlockHandle}
    {outcome : Except Fault (Block Call)} {after : Session}
    (stack : session.blocks = top :: outer) (closes : operation.handle? = some handle)
    (inside : 0 < handle.depth) (closing : session.Closing handle outcome after) :
    operation.Step session top outer (outcome.map (fun _ => ())) after.blocks := by
  cases closing with
  | refused fault =>
      rw [stack]
      exact .refused fault closes (List.suffix_refl _) (List.cons_ne_nil _ _)
  | dropped fault stands height =>
      obtain ⟨rfl, rfl⟩ := List.cons.inj (stack.symm.trans stands)
      refine .refused fault closes (List.suffix_cons top outer) ?_
      exact List.length_pos_iff.mp (height ▸ inside)
  | sealed stands height fits registry hung =>
      obtain ⟨rfl, rfl⟩ := List.cons.inj (stack.symm.trans stands)
      obtain ⟨parent, rest, rfl⟩ :=
        List.exists_cons_of_ne_nil (List.length_pos_iff.mp (height ▸ inside))
      rw [hung]
      exact .sealed closes rfl

theorem closeBlock_step (stack : session.blocks = top :: outer) (handle : BlockHandle)
    (inside : 0 < handle.depth) :
    (closeBlock handle inside).Step session top outer ((closeBlock handle inside).perform session).1
      ((closeBlock handle inside).perform session).2.blocks := by
  rcases run : Session.closeBlock handle session with ⟨outcome, after⟩
  have performs : (closeBlock handle inside).perform session =
      (outcome.map (fun _ => ()), after) := by
    rw [perform, Computation.bind_run, run]
    cases outcome <;> rfl
  rw [performs]
  exact closing_step stack rfl inside (Session.closeBlock_closing run)

/-- The end of a scoped block closes it if its body has succeeded, and in any case discards what
is still open inside. -/
theorem leaveBlock_step (stack : session.blocks = top :: outer) (handle : BlockHandle)
    (inside : 0 < handle.depth) (location : Location) (body : Except Fault Unit) :
    (leaveBlock handle inside location body).Step session top outer
      ((leaveBlock handle inside location body).perform session).1
      ((leaveBlock handle inside location body).perform session).2.blocks := by
  cases body with
  | error fault =>
      refine .refused _ rfl ?_ (Session.discardAbove_ne_nil inside ?_)
      · rw [← stack]
        exact Session.discardAbove_suffix _ _
      · rw [stack]
        exact List.cons_ne_nil _ _
  | ok _ =>
      rcases run : Session.closeBlock handle session with ⟨outcome, after⟩
      have performs : (leaveBlock handle inside location (.ok ())).perform session =
          (outcome.map (fun _ => ()), after.discardAbove handle.depth) := by
        rw [perform, Session.leaveBlock, run]
      rw [performs]
      have closed : (leaveBlock handle inside location (.ok ())).Step session top outer
          (outcome.map (fun _ => ())) after.blocks :=
        closing_step stack rfl inside (Session.closeBlock_closing run)
      cases outcome with
      | error fault =>
          have kept : after.blocks <:+ top :: outer := by
            cases closed with
            | refused fault closes suffix inside => exact suffix
          refine .refused fault rfl ?_ (Session.discardAbove_ne_nil inside closed.ne_nil)
          exact (Session.discardAbove_suffix _ _).trans kept
      | ok sealed =>
          have nothing_above : (after.discardAbove handle.depth).blocks = after.blocks := by
            cases Session.closeBlock_closing run with
            | sealed stands height fits registry hung =>
                rw [Session.discardAbove, hung, List.length_modifyHead, height, Nat.sub_self]
                rfl
          rw [nothing_above]
          exact closed

/-- Each operation does one of the things it can do. -/
theorem step (stack : session.blocks = top :: outer) (operation : Operation) :
    operation.Step session top outer (operation.perform session).1
      (operation.perform session).2.blocks := by
  cases operation with
  | openBlock kind options location =>
      have run : (Operation.openBlock kind options location).perform session = _ :=
        Computation.bind_ok_iff.mpr
          ⟨_, _, Session.openBlock_run kind options location stack, rfl⟩
      rw [run]
      exact .opened kind options location
  | closeBlock handle inside => exact closeBlock_step stack handle inside
  | leaveBlock handle inside location body => exact leaveBlock_step stack handle inside location body
  | addCall call location =>
      have run : (Operation.addCall call location).perform session = _ :=
        Session.locating_run (Session.inBlock_run _ _ stack)
      rw [run]
      exact .appended call location
  | declare declaration location =>
      rcases Session.declaration_cases stack declaration location with
        ⟨label, made, run⟩ | ⟨none, fault, run⟩
      · rw [show (Operation.declare declaration location).perform session = _ from run]
        exact .declared declaration location made
      · rw [show (Operation.declare declaration location).perform session = _ from run, stack]
        exact .undeclared declaration location fault none
  | write output location =>
      have run : (Operation.write output location).perform session = (.ok (), { session with
          blocks := { top with outputs := top.outputs ++ [output] } :: outer }) := by
        cases output <;> exact Session.locating_run (Session.inBlock_run _ _ stack)
      rw [run]
      exact .written output location
  | aside change apart =>
      show Step session top outer _ (.ok ()) (change session).blocks
      rw [apart, stack]
      exact .aside change apart

end Operation

end Steps

namespace Session

theorem exists_innermost {session : Session} (inside : session.blocks ≠ []) :
    ∃ top outer, session.blocks = top :: outer :=
  List.exists_cons_of_ne_nil inside

/-- Operations leave a block open if there is one. -/
theorem after_ne_nil {session : Session} (inside : session.blocks ≠ [])
    (operations : List Operation) : (session.after operations).blocks ≠ [] := by
  induction operations generalizing session with
  | nil => exact inside
  | cons operation rest ih =>
      obtain ⟨top, outer, stack⟩ := exists_innermost inside
      exact ih (operation.step stack).ne_nil

end Session

/-! ## Bodies -/

namespace Act

variable {ε α β : Type}

/-- Whatever comes of the body, the session is as before. -/
def Aloof (body : Act ε α) : Prop :=
  ∀ studio, (body studio).2.session = studio.session

theorem aloof_pure (value : α) : Aloof (pure value : Act ε α) :=
  fun _ => rfl

theorem aloof_throw (fault : Fault) : Aloof (throw fault : Act ε α) :=
  fun _ => rfl

theorem aloof_get : Aloof (get : Act ε (Studio ε)) :=
  fun _ => rfl

theorem aloof_ofExcept (outcome : Except Fault α) : Aloof (ofExcept outcome : Act ε α) :=
  fun _ => rfl

theorem Aloof.bind {first : Act ε α} {next : α → Act ε β} (here : Aloof first)
    (there : ∀ value, Aloof (next value)) : Aloof (first >>= next) := by
  intro studio
  have same := here studio
  rw [Computation.bind_run]
  rcases run : first studio with ⟨fault | value, after⟩
  · rw [run] at same
    exact same
  · rw [run] at same
    exact (there value after).trans same

theorem Aloof.mapM {step : α → Act ε β} (each : ∀ item, Aloof (step item)) :
    ∀ items : List α, Aloof (items.mapM step)
  | [] => by
      rw [List.mapM_nil]
      exact aloof_pure _
  | item :: rest => by
      rw [List.mapM_cons]
      exact (each item).bind (fun _ => (Aloof.mapM each rest).bind (fun _ => aloof_pure _))

theorem Aloof.optionMapM {step : α → Act ε β} (each : ∀ item, Aloof (step item)) :
    ∀ item : Option α, Aloof (item.mapM step)
  | none => aloof_pure none
  | some item => (each item).bind (fun _ => aloof_pure _)

/-- The body does to its session what the operations do. -/
def Performs (body : Act ε α) (studio : Studio ε) (operations : List Operation) : Prop :=
  (body studio).2.session = studio.session.after operations

/-- Inside a phase the body does nothing to its session but operations. -/
def Contextual (body : Act ε α) : Prop :=
  ∀ studio, studio.session.blocks ≠ [] → ∃ operations, Performs body studio operations

theorem Aloof.contextual {body : Act ε α} (aloof : Aloof body) : Contextual body :=
  fun studio _ => ⟨[], aloof studio⟩

/-- The second body may depend on what came of the first. -/
theorem Contextual.bind {first : Act ε α} {next : α → Act ε β} (here : Contextual first)
    (there : ∀ value, Contextual (next value)) : Contextual (first >>= next) := by
  intro studio inside
  obtain ⟨operations, performs⟩ := here studio inside
  rcases run : first studio with ⟨_ | value, after⟩
  · refine ⟨operations, ?_⟩
    rw [Performs, run] at performs
    rw [Performs, Computation.bind_run, run]
    exact performs
  · rw [Performs, run] at performs
    have still_inside : after.session.blocks ≠ [] := by
      rw [show after.session = _ from performs]
      exact Session.after_ne_nil inside operations
    obtain ⟨further, also_performs⟩ := there value after still_inside
    refine ⟨operations ++ further, ?_⟩
    rw [Performs, Computation.bind_run, run, Session.after_append, ← performs]
    exact also_performs

theorem Contextual.attempt {body : Act ε α} (contextual : Contextual body) :
    Contextual (attempt body) :=
  contextual

theorem Contextual.locating {body : Act ε α} (contextual : Contextual body) (location : Location) :
    Contextual (locating location body) :=
  contextual

theorem contextual_operation (operation : Operation) :
    Contextual (session operation.perform : Act ε Unit) :=
  fun _ _ => ⟨[operation], rfl⟩

/-- What leaves the open blocks as they are may do anything else to a session. -/
theorem contextual_aside {action : Action α}
    (apart : ∀ session, (action session).2.blocks = session.blocks) :
    Contextual (session action : Act ε α) :=
  fun _ _ => ⟨[.aside (fun session => (action session).2) apart], rfl⟩

theorem Contextual.scopedBlock {body : Act ε Unit} (contextual : Contextual body)
    (kind : BlockKind) (options : BlockOptions) (location : Location) :
    Contextual (scopedBlock kind options location body) := by
  intro studio inside
  obtain ⟨top, outer, stack⟩ := Session.exists_innermost inside
  have opens := Session.openBlock_run kind options (some location) stack
  have opened : (session (Session.openBlock kind options (some location)) : Act ε BlockHandle)
      studio = (.ok ⟨top.id.child top.children.length, (top :: outer).length⟩,
        { studio with session :=
          ((Operation.openBlock kind options (some location)).perform studio.session).2 }) := by
    have run : (Operation.openBlock kind options (some location)).perform studio.session = _ :=
      Computation.bind_ok_iff.mpr ⟨_, _, opens, rfl⟩
    rw [run]
    simp only [session, opens]
  have rest : Contextual (Act.attempt body >>= fun outcome =>
      session (Session.leaveBlock ⟨top.id.child top.children.length, (top :: outer).length⟩
        location outcome)) :=
    contextual.attempt.bind (fun outcome => contextual_operation (.leaveBlock
      ⟨top.id.child top.children.length, (top :: outer).length⟩ (Nat.succ_pos _) location outcome))
  obtain ⟨operations, performs⟩ := rest
    { studio with session := studio.session.after [.openBlock kind options (some location)] }
    (Session.after_ne_nil inside [.openBlock kind options (some location)])
  refine ⟨.openBlock kind options (some location) :: operations, ?_⟩
  rw [Performs, Act.scopedBlock, Computation.bind_run, opened]
  exact performs

/-- The body that makes the operations one after the other, whatever comes of them. -/
def each : List Operation → Act ε Unit
  | [] => pure ()
  | operation :: rest => do
      let _ ← attempt (session operation.perform)
      each rest

theorem performs_each (operations : List Operation) (studio : Studio ε) :
    Performs (each operations) studio operations := by
  induction operations generalizing studio with
  | nil => rfl
  | cons operation rest ih => exact ih _

end Act
end TestProgram
