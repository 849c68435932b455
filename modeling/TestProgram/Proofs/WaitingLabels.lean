/-
# TestProgram.Proofs.WaitingLabels -- what waits is carried by the next call, in order

Labels and outputs wait in the innermost open block for a call.  They move on when a block opens
inside, and when a block closes first they get a placeholder at its end.  Seen from outside all
this is one tape (`Tape`): what is declared and written waits in one line, the next call takes
the whole line in front of its own, and a block that closes puts a placeholder on the tape if
anything waits.  The tape knows nothing of blocks.

The stack of open blocks holds the same: the calls of its blocks, those of the outer ones first,
are the calls on the tape, the innermost block has what waits, and nothing waits in the others
(`Tape.Matches`).  Each operation keeps this, as long as none throws an open block away.  So the
calls of a sealed phase are those on the tape, and they carry all labels in the order in which
they were declared (`labels_carried_in_order`).

That placeholders are last children cannot be read off the calls, since a call without a name may
also be added.  Therefore the tape marks its placeholders, and the marks are hung into the tree.
-/
import TestProgram.Proofs.Operations
import TestProgram.Proofs.Places

namespace TestProgram

set_option autoImplicit false

/-! ## The tape -/

/-- The calls made so far, with a mark on placeholders, and what waits for the next one. -/
structure Tape where
  entries : List (Call × Bool) := []
  labels : List Label := []
  outputs : List Output := []

namespace Tape

def calls (tape : Tape) : List Call :=
  tape.entries.map Prod.fst

def add (tape : Tape) (call : Call) : Tape where
  entries := tape.entries ++ [({ call with
    labels := tape.labels ++ call.labels, outputs := tape.outputs ++ call.outputs }, false)]

/-- The tape when a block closes. -/
def flush (tape : Tape) (memory : Option MemorySection) (location : Option Location) : Tape :=
  if tape.labels.isEmpty && tape.outputs.isEmpty then tape
  else
    let placeholder : Call :=
      { name := "", labels := tape.labels, outputs := tape.outputs, memory, location }
    { entries := tape.entries ++ [(placeholder, true)] }

/-- What an operation writes on the tape.  Of one that fails only the failure is seen. -/
def record (session : Session) (tape : Tape) : Operation → Except Fault Unit → Tape
  | _, .error _ => tape
  | .addCall call location, .ok _ => tape.add (session.completeCall
      { call with location := some (call.location.getD location) })
  | .declare declaration _, .ok _ =>
      { tape with labels := tape.labels ++ (declaration.label? session.scope).toList }
  | .write output _, .ok _ => { tape with outputs := tape.outputs ++ [output] }
  | .closeBlock _ _, .ok _ | .leaveBlock _ _ _ _, .ok _ =>
      tape.flush session.currentSection (session.blocks.head?.bind OpenBlock.location)
  | .openBlock _ _ _, .ok _ | .aside _ _, .ok _ => tape

/-- The tape after a sequence of operations. -/
def run (session : Session) (tape : Tape) : List Operation → Tape
  | [] => tape
  | operation :: rest =>
      run (operation.perform session).2
        (tape.record session operation (operation.perform session).1) rest

end Tape

/-! ## Declarations in order -/

/-- The labels that an operation brings into a scope. -/
def Operation.labels (scope : BlockId) : Operation → List Label
  | .addCall call _ => call.labels
  | .declare declaration _ => (declaration.label? scope).toList
  | _ => []

def Operation.outputs : Operation → List Output
  | .addCall call _ => call.outputs
  | .write output _ => [output]
  | _ => []

/-- The labels of a sequence of operations, in their order. -/
def Session.declaredLabels (session : Session) : List Operation → List Label
  | [] => []
  | operation :: rest =>
      operation.labels session.scope ++ (operation.perform session).2.declaredLabels rest

/-! ## Freight -/

/-- What calls carry: labels and outputs, each in their order. -/
structure Freight where
  labels : List Label := []
  outputs : List Output := []

namespace Freight

instance : Append Freight :=
  ⟨fun first second => ⟨first.labels ++ second.labels, first.outputs ++ second.outputs⟩⟩

theorem append_def (first second : Freight) :
    first ++ second = ⟨first.labels ++ second.labels, first.outputs ++ second.outputs⟩ := rfl

@[simp] theorem append_empty (freight : Freight) : freight ++ {} = freight := by
  simp [append_def]

theorem append_assoc (first second third : Freight) :
    first ++ second ++ third = first ++ (second ++ third) := by
  simp [append_def]

def ofCalls (calls : List Call) : Freight :=
  ⟨calls.flatMap Call.labels, calls.flatMap Call.outputs⟩

end Freight

def Operation.freight (scope : BlockId) (operation : Operation) : Freight :=
  ⟨operation.labels scope, operation.outputs⟩

/-- What a tape holds, on calls and waiting. -/
def Tape.freight (tape : Tape) : Freight :=
  Freight.ofCalls tape.calls ++ ⟨tape.labels, tape.outputs⟩

/-! ## Blocks that stay -/

/-- Every block that the operations open is sealed or still open: none that fails takes a block
off the stack. -/
def Session.sealsEvery (session : Session) : List Operation → Bool
  | [] => true
  | operation :: rest =>
      ((operation.perform session).1.isOk ||
        decide (session.blocks.length ≤ (operation.perform session).2.blocks.length)) &&
      (operation.perform session).2.sealsEvery rest

/-! ## The tape and the stack -/

/-- The leaves of a stack of lists of trees, those of the outer ones first. -/
def gathered {α : Type} : List (List (Tree α)) → List α
  | [] => []
  | children :: outer => gathered outer ++ Tree.callsOf children

/-- The children of a sealed block: placeholders come last, one at most. -/
def EndsTidily (children : List (Tree (Call × Bool))) : Prop :=
  ∃ front last, children = front ++ last ∧ (∀ entry, .leaf entry ∈ front → entry.2 = false) ∧
    (last = [] ∨ ∃ call, last = [.leaf (call, true)])

def Tree.Tidy (tree : Tree (Call × Bool)) : Prop :=
  ∀ place info children, tree.node? place = some (.block info children) → EndsTidily children

/-- The children of an open block with their marks: no placeholder is among them, and those that
are blocks end tidily. -/
structure MarkedAs (bare : List (Tree Call)) (children : List (Tree (Call × Bool))) : Prop where
  unmarked : Tree.mapAll Prod.fst children = bare
  added : ∀ entry, .leaf entry ∈ children → entry.2 = false
  tidy : ∀ child ∈ children, child.Tidy

/-- A tape that says the same as a stack of open blocks. -/
structure Tape.Matches (tape : Tape) (blocks : List OpenBlock) : Prop where
  entries : ∃ marks,
    List.Forall₂ (fun block children => MarkedAs (OpenBlock.children block) children) blocks marks ∧
      gathered marks = tape.entries
  waiting : ∃ top outer, blocks = top :: outer ∧ top.labels = tape.labels ∧
    top.outputs = tape.outputs ∧ ∀ block ∈ outer, block.labels = [] ∧ block.outputs = []

/-! ## Sealed blocks -/

theorem endsTidily_of_added {children : List (Tree (Call × Bool))}
    (added : ∀ entry, .leaf entry ∈ children → entry.2 = false) : EndsTidily children :=
  ⟨children, [], (List.append_nil _).symm, added, .inl rfl⟩

theorem Tree.tidy_leaf (entry : Call × Bool) : (Tree.leaf entry).Tidy := by
  intro place info children found
  cases place <;> cases found

theorem Tree.tidy_block {info : BlockInfo} {children : List (Tree (Call × Bool))}
    (ends : EndsTidily children) (below : ∀ child ∈ children, child.Tidy) :
    (Tree.block info children).Tidy := by
  intro place inner nodes found
  cases place with
  | nil =>
      cases found
      exact ends
  | cons number rest =>
      obtain ⟨child, listed, found⟩ := Tree.node?_cons_iff.mp found
      exact below child (List.mem_of_getElem? listed) rest inner nodes found

theorem Tape.flush_waiting (tape : Tape) (memory : Option MemorySection)
    (location : Option Location) :
    (tape.flush memory location).labels = [] ∧ (tape.flush memory location).outputs = [] := by
  unfold Tape.flush
  split
  · rename_i silent
    simpa only [Bool.and_eq_true, List.isEmpty_iff] using silent
  · exact ⟨rfl, rfl⟩

theorem MarkedAs.hung {bare : List (Tree Call)} {children : List (Tree (Call × Bool))}
    (marked : MarkedAs bare children) {tree : Tree (Call × Bool)}
    (added : ∀ entry, tree = .leaf entry → entry.2 = false) (tidy : tree.Tidy) :
    MarkedAs (bare ++ [tree.map Prod.fst]) (children ++ [tree]) where
  unmarked := by
    rw [Tree.mapAll_append, marked.unmarked]
    rfl
  added entry member := by
    rcases List.mem_append.mp member with earlier | last
    · exact marked.added entry earlier
    · exact added entry (List.mem_singleton.mp last).symm
  tidy child member := by
    rcases List.mem_append.mp member with earlier | last
    · exact marked.tidy child earlier
    · rw [List.mem_singleton.mp last]
      exact tidy

/-- A block is sealed with a placeholder at its end exactly if the tape gets one. -/
theorem MarkedAs.sealed {block : OpenBlock} {children : List (Tree (Call × Bool))}
    (marked : MarkedAs block.children children) {tape : Tape}
    (labels : block.labels = tape.labels) (outputs : block.outputs = tape.outputs)
    (memory : Option MemorySection) :
    ∃ last, (Tree.block (block.flushed memory).toBlock.info (children ++ last)).map Prod.fst =
        (block.flushed memory).toBlock.toTree ∧
      (Tree.block (block.flushed memory).toBlock.info (children ++ last)).Tidy ∧
      tape.entries ++ Tree.callsOf last = (tape.flush memory block.location).entries := by
  unfold OpenBlock.flushed Tape.flush
  rw [labels, outputs]
  by_cases silent : (tape.labels.isEmpty && tape.outputs.isEmpty) = true
  · rw [if_pos silent, if_pos silent]
    refine ⟨[], ?_, ?_, ?_⟩
    · rw [List.append_nil, Tree.map, marked.unmarked]
      rfl
    · rw [List.append_nil]
      exact Tree.tidy_block (endsTidily_of_added marked.added) marked.tidy
    · rw [Tree.callsOf, List.append_nil]
  · rw [if_neg silent, if_neg silent]
    let placeholder : Call :=
      { name := "", labels := tape.labels, outputs := tape.outputs, memory
        location := block.location }
    refine ⟨[.leaf (placeholder, true)], ?_, ?_, rfl⟩
    · rw [Tree.map, Tree.mapAll_append, marked.unmarked]
      rfl
    · refine Tree.tidy_block
        ⟨children, [.leaf (placeholder, true)], rfl, marked.added, .inr ⟨placeholder, rfl⟩⟩ ?_
      intro child member
      rcases List.mem_append.mp member with earlier | last
      · exact marked.tidy child earlier
      · rw [List.mem_singleton.mp last]
        exact Tree.tidy_leaf _

/-! ## Steps -/

theorem Tape.record_closes (session : Session) (tape : Tape) {operation : Operation}
    {handle : BlockHandle} (closes : operation.handle? = some handle) :
    tape.record session operation (.ok ()) =
      tape.flush session.currentSection (session.blocks.head?.bind OpenBlock.location) := by
  cases operation with
  | closeBlock => rfl
  | leaveBlock => rfl
  | _ => cases closes

section Steps

variable {session : Session} {top : OpenBlock} {outer blocks : List OpenBlock}
  {operation : Operation} {outcome : Except Fault Unit} {tape : Tape}

/-- A block that opens takes over what waits. -/
theorem Tape.Matches.opened (same : tape.Matches (top :: outer)) (kind : BlockKind)
    (options : BlockOptions) (location : Option Location) :
    tape.Matches ({ id := top.id.child top.children.length, kind, options, location
                    labels := top.labels, outputs := top.outputs } ::
      { top with labels := [], outputs := [] } :: outer) := by
  obtain ⟨⟨marks, marked, gathers⟩, _, _, parts, labels, outputs, quiet⟩ := same
  cases parts
  cases marked with
  | @cons _ children _ others here around =>
  have empty : MarkedAs [] [] :=
    ⟨rfl, (fun _ member => nomatch member), (fun _ member => nomatch member)⟩
  refine ⟨⟨[] :: children :: others, .cons empty (.cons ⟨here.1, here.2, here.3⟩ around), ?_⟩, ?_⟩
  · rw [gathered, Tree.callsOf, List.append_nil]
    exact gathers
  · refine ⟨_, _, rfl, labels, outputs, ?_⟩
    intro block member
    rcases List.mem_cons.mp member with rfl | further
    · exact ⟨rfl, rfl⟩
    · exact quiet block further

/-- A block that closes is hung into the one around it, with what the tape gets at its end. -/
theorem Tape.Matches.sealed {parent : OpenBlock} {rest : List OpenBlock}
    (same : tape.Matches (top :: parent :: rest)) (memory : Option MemorySection) :
    (tape.flush memory top.location).Matches
      ({ parent with children :=
          parent.children ++ [(top.flushed memory).toBlock.toTree] } :: rest) := by
  obtain ⟨⟨marks, marked, gathers⟩, _, _, parts, labels, outputs, quiet⟩ := same
  cases parts
  cases marked with
  | @cons _ _ _ _ here around =>
  cases around with
  | @cons _ _ _ _ there behind =>
  obtain ⟨last, unmarked, tidy, flushed⟩ := here.sealed labels outputs memory
  have with_block := there.hung (fun entry leaf => by cases leaf) tidy
  rw [unmarked] at with_block
  refine ⟨⟨_, .cons with_block behind, ?_⟩, _, _, rfl, ?_, ?_, ?_⟩
  · rw [← flushed, ← gathers]
    simp [gathered, Tree.callsOf_append, Tree.callsOf, Tree.calls]
  · rw [(tape.flush_waiting _ _).1]
    exact (quiet parent List.mem_cons_self).1
  · rw [(tape.flush_waiting _ _).2]
    exact (quiet parent List.mem_cons_self).2
  · exact fun block member => quiet block (List.mem_cons_of_mem _ member)

/-- A call takes what waits. -/
theorem Tape.Matches.appended (same : tape.Matches (top :: outer)) (call : Call) :
    (tape.add call).Matches (Session.OpenBlock.append top call :: outer) := by
  obtain ⟨⟨marks, marked, gathers⟩, _, _, parts, labels, outputs, quiet⟩ := same
  cases parts
  cases marked with
  | @cons _ _ _ _ here around =>
  let carrying : Call := { call with
    labels := top.labels ++ call.labels, outputs := top.outputs ++ call.outputs }
  have with_call := here.hung (fun entry leaf => by cases leaf; rfl)
    (Tree.tidy_leaf (carrying, false))
  refine ⟨⟨_, .cons with_call around, ?_⟩, _, _, rfl, rfl, rfl, quiet⟩
  show gathered _ = tape.entries ++ [({ call with
    labels := tape.labels ++ call.labels, outputs := tape.outputs ++ call.outputs }, false)]
  rw [← labels, ← outputs, ← gathers, gathered, gathered, Tree.callsOf_append,
    ← List.append_assoc]
  rfl

/-- What is declared or written waits in the innermost block. -/
theorem Tape.Matches.waits (same : tape.Matches (top :: outer)) (labels : List Label)
    (outputs : List Output) :
    Tape.Matches { tape with
        labels := tape.labels ++ labels, outputs := tape.outputs ++ outputs }
      ({ top with labels := top.labels ++ labels, outputs := top.outputs ++ outputs } :: outer) := by
  obtain ⟨⟨marks, marked, gathers⟩, _, _, parts, here, also_here, quiet⟩ := same
  cases parts
  cases marked with
  | @cons _ _ _ _ inside around =>
  refine ⟨⟨_, .cons ⟨inside.1, inside.2, inside.3⟩ around, gathers⟩, _, _, rfl, ?_, ?_, quiet⟩
  · exact congrArg (· ++ labels) here
  · exact congrArg (· ++ outputs) also_here

/-- Each operation that throws no block away does to the stack what it does to the tape. -/
theorem Tape.Matches.step (stack : session.blocks = top :: outer)
    (same : tape.Matches (top :: outer))
    (step : operation.Step session top outer outcome blocks)
    (kept : outcome.isOk = true ∨ (top :: outer).length ≤ blocks.length) :
    (tape.record session operation outcome).Matches blocks := by
  cases step with
  | opened kind options location => exact same.opened kind options location
  | @sealed _ handle parent rest closes inside =>
      subst inside
      rw [tape.record_closes session closes, stack]
      exact same.sealed session.currentSection
  | refused fault closes suffix inside =>
      have whole : blocks = top :: outer := by
        apply suffix.eq_of_length_le
        rcases kept with ok | length
        · cases ok
        · exact length
      subst whole
      exact same
  | appended call location => exact same.appended _
  | declared declaration location made =>
      rw [Tape.record, Session.scope_eq stack, made]
      simpa using same.waits [_] []
  | undeclared declaration location fault none => exact same
  | written output location => simpa [Tape.record] using same.waits [] [output]
  | aside change apart => exact same

/-! ## What is on the tape -/

theorem Tape.freight_add (tape : Tape) (call : Call) :
    (tape.add call).freight = tape.freight ++ ⟨call.labels, call.outputs⟩ := by
  simp [freight, Freight.ofCalls, Freight.append_def, calls, add]

/-- A placeholder carries what waited, and nothing waits then. -/
theorem Tape.freight_flush (tape : Tape) (memory : Option MemorySection)
    (location : Option Location) : (tape.flush memory location).freight = tape.freight := by
  unfold flush
  split
  · rfl
  · simp [freight, Freight.ofCalls, Freight.append_def, calls]

theorem Operation.freight_of_closes {handle : BlockHandle} (scope : BlockId)
    (closes : operation.handle? = some handle) : operation.freight scope = {} := by
  cases operation with
  | closeBlock => rfl
  | leaveBlock => rfl
  | _ => cases closes

theorem Tape.freight_record (stack : session.blocks = top :: outer)
    (step : operation.Step session top outer outcome blocks) :
    (tape.record session operation outcome).freight =
      tape.freight ++ operation.freight session.scope := by
  cases step with
  | opened => exact (Freight.append_empty _).symm
  | sealed closes inside =>
      rw [record_closes session tape closes, freight_flush,
        Operation.freight_of_closes session.scope closes, Freight.append_empty]
  | refused fault closes suffix inside =>
      rw [Operation.freight_of_closes session.scope closes, Freight.append_empty]
      cases operation <;> rfl
  | appended call location => exact freight_add tape _
  | declared declaration location made =>
      rw [freight, freight, Freight.append_assoc]
      simp [record, calls, Operation.freight, Operation.labels, Operation.outputs,
        Freight.append_def]
  | undeclared declaration location fault none =>
      rw [Operation.freight, Operation.labels, Session.scope_eq stack, none]
      exact (Freight.append_empty _).symm
  | written output location =>
      rw [freight, freight, Freight.append_assoc]
      simp [record, calls, Operation.freight, Operation.labels, Operation.outputs,
        Freight.append_def]
  | aside => exact (Freight.append_empty _).symm

end Steps

/-! ## Runs -/

theorem Tape.matches_root (kind : BlockKind) :
    Tape.Matches {} [{ id := BlockId.root, kind }] := by
  have marked : MarkedAs [] [] :=
    ⟨rfl, (fun _ member => nomatch member), (fun _ member => nomatch member)⟩
  exact ⟨⟨[[]], .cons marked .nil, rfl⟩, _, _, rfl, rfl, rfl, fun _ member => nomatch member⟩

/-- When a single block is open, all that is on the tape hangs in it. -/
theorem Tape.Matches.only {tape : Tape} {block : OpenBlock} (same : tape.Matches [block]) :
    ∃ children, MarkedAs block.children children ∧ Tree.callsOf children = tape.entries ∧
      block.labels = tape.labels ∧ block.outputs = tape.outputs := by
  obtain ⟨⟨marks, marked, gathers⟩, _, _, parts, labels, outputs, _⟩ := same
  cases parts
  cases marked with
  | @cons _ children _ _ here none =>
      cases none
      exact ⟨children, here, gathers, labels, outputs⟩

section Runs

variable {session : Session} {tape : Tape} {operations : List Operation}

theorem Tape.Matches.run (same : tape.Matches session.blocks)
    (seals : session.sealsEvery operations = true) :
    (tape.run session operations).Matches (session.after operations).blocks := by
  induction operations generalizing session tape with
  | nil => exact same
  | cons operation rest ih =>
      rw [Session.sealsEvery, Bool.and_eq_true, Bool.or_eq_true, decide_eq_true_eq] at seals
      obtain ⟨kept, later⟩ := seals
      obtain ⟨top, outer, stack, _⟩ := same.waiting
      rw [stack] at same kept
      exact ih (same.step stack (operation.step stack) kept) later

theorem Tape.freight_run (inside : session.blocks ≠ []) :
    (tape.run session operations).freight = tape.freight ++
      ⟨session.declaredLabels operations, operations.flatMap Operation.outputs⟩ := by
  induction operations generalizing session tape with
  | nil => exact (Freight.append_empty _).symm
  | cons operation rest ih =>
      obtain ⟨top, outer, stack⟩ := Session.exists_innermost inside
      have step := operation.step stack
      rw [run, ih step.ne_nil, freight_record stack step, Freight.append_assoc]
      rfl

end Runs

/-! ## The calls of a phase -/

/-- The tape of a sequence of operations when the innermost block is closed after them. -/
def Session.tape (session : Session) (operations : List Operation) : Tape :=
  (Tape.run session {} operations).flush (session.after operations).currentSection
    ((session.after operations).blocks.head?.bind OpenBlock.location)

/-- When the block is closed, its calls carry all that was declared and written. -/
theorem Session.ofCalls_tape {session : Session} (inside : session.blocks ≠ [])
    (operations : List Operation) : Freight.ofCalls (session.tape operations).calls =
      ⟨session.declaredLabels operations, operations.flatMap Operation.outputs⟩ := by
  have all : (session.tape operations).freight = _ :=
    (Tape.freight_flush _ _ _).trans (Tape.freight_run inside)
  obtain ⟨labels, outputs⟩ : (session.tape operations).labels = [] ∧
      (session.tape operations).outputs = [] := Tape.flush_waiting _ _ _
  rw [Tape.freight, labels, outputs] at all
  exact (Freight.append_empty _).symm.trans all

/-- A sealed block has the calls on the tape of the operations that built it, which carry all
labels and outputs in order; a placeholder is the last child of its block. -/
structure CarriesInOrder (session : Session) (operations : List Operation) (block : Block Call) :
    Prop where
  calls : block.calls = (session.tape operations).calls
  labels : block.calls.flatMap Call.labels = session.declaredLabels operations
  outputs : block.calls.flatMap Call.outputs = operations.flatMap Operation.outputs
  placeholders : ∃ marked : Tree (Call × Bool), marked.map Prod.fst = block.toTree ∧
    marked.calls = (session.tape operations).entries ∧ marked.Tidy

/-- **Nothing that waits is lost, doubled or moved.**  If a phase body leaves every block it opens
by sealing it, the calls of the phase are those on the tape: each call that is added takes what
waits in front of its own, and each block that closes with something waiting gets a placeholder
for it.  So the labels of all calls are the labels that were declared or brought along, in the
order of the program, and so are the texts and comments.  Every block has one placeholder at
most, as its last child. -/
theorem labels_carried_in_order {ε : Type} (kind : PhaseKind) (body : Act ε Unit)
    (studio after : Studio ε) (operations : List Operation) (phase : Phase)
    (closed : studio.session.blocks = [])
    (performs : Act.Performs body (Act.bodyStart kind studio) operations)
    (seals : (Act.bodyStart kind studio).session.sealsEvery operations = true)
    (run : Act.runPhase kind body studio = (.ok phase, after)) :
    CarriesInOrder (Act.bodyStart kind studio).session operations phase.block := by
  have started := Act.bodyStart_blocks closed run
  have inside : (Act.bodyStart kind studio).session.blocks ≠ [] := by
    rw [started]
    exact List.cons_ne_nil _ _
  obtain ⟨block, ends⟩ := Act.runPhase_ends run
  have ended : (Act.bodyEnd kind body studio).session = _ := performs
  have begun : Tape.Matches {} (Act.bodyStart kind studio).session.blocks := by
    rw [started]
    exact Tape.matches_root _
  have same := begun.run seals
  rw [← ended, ends.only] at same
  obtain ⟨children, here, gathers, labels, outputs⟩ := same.only
  have flushed : (Act.bodyStart kind studio).session.tape operations =
      (Tape.run (Act.bodyStart kind studio).session {} operations).flush
        (Act.bodyEnd kind body studio).session.currentSection block.location := by
    rw [Session.tape, ← ended, ends.only]
    rfl
  obtain ⟨last, unmarked, tidy, entries⟩ :=
    here.sealed labels outputs (Act.bodyEnd kind body studio).session.currentSection
  rw [← flushed, ← gathers] at entries
  rw [← ends.sealed] at unmarked tidy
  have on_tape : (Tree.block phase.block.info (children ++ last)).calls =
      ((Act.bodyStart kind studio).session.tape operations).entries := by
    rw [← entries, Tree.calls, Tree.callsOf_append]
  have calls : phase.block.calls =
      ((Act.bodyStart kind studio).session.tape operations).calls := by
    rw [Tape.calls, ← on_tape, ← Tree.calls_map, unmarked]
    rfl
  refine ⟨calls, ?_, ?_, _, unmarked, on_tape, tidy⟩
  · rw [calls]
    exact congrArg Freight.labels (Session.ofCalls_tape inside operations)
  · rw [calls]
    exact congrArg Freight.outputs (Session.ofCalls_tape inside operations)

/-- A label that waits for a call in the block opened after it, and one that is left over there. -/
def waitingAround : List Operation :=
  [.declare (.label "a") written, .openBlock .sequence {} (some written),
    .addCall { name := "x" } written, .declare (.label "b") written,
    .leaveBlock ⟨BlockId.root.child 0, 1⟩ (by decide) written (.ok ()),
    .write (.comment "c") written, .addCall { name := "y" } written]
where
  written : Location := .caller "template" 1 1

theorem labels_carried_in_order_across_blocks :
    ∃ phase after, Act.runPhase .pre (Act.each waitingAround) ⟨Session.new {}, ()⟩ =
        (.ok phase, after) ∧
      phase.block.calls.flatMap Call.labels =
        [{ name := .named "a", scope := BlockId.root },
          { name := .named "b", scope := BlockId.root.child 0 }] ∧
      phase.block.calls.flatMap Call.outputs = [.comment "c"] := by
  have succeeds : (Act.runPhase .pre (Act.each waitingAround) ⟨Session.new {}, ()⟩).1.isOk =
      true := by decide +kernel
  obtain ⟨phase, after, run⟩ := Act.exists_ok succeeds
  have carries := labels_carried_in_order .pre (Act.each waitingAround) ⟨Session.new {}, ()⟩ after
    waitingAround phase rfl (Act.performs_each _ _) (by decide +kernel) run
  have declared : (Act.bodyStart .pre ⟨Session.new {}, ()⟩).session.declaredLabels waitingAround =
      [{ name := .named "a", scope := BlockId.root },
        { name := .named "b", scope := BlockId.root.child 0 }] := by decide +kernel
  exact ⟨phase, after, run, carries.labels.trans declared, carries.outputs⟩

end TestProgram
