/-
# TestProgram.Proofs.BlockPaths -- a block is named by its place in the sealed tree

A block gets its id when it opens, from the number of children that the block around it has by
then, and it is hung into that block only when it closes.  In between others may open and close,
fail and be thrown away.  The names still come out as the places: of a stack of open blocks each
is always named by the place where it will hang (`Nested`), because only the innermost block
takes up children, and whatever hangs in an open block hangs at its place already
(`Tree.LaidOut`).

So in the tree of a phase no two blocks have one id, and a block encloses another, by their ids,
when the other lies inside it in the tree.  Labels take part in this: a label that was declared
has the id of the innermost open block as its scope, it can only move inwards until a call
carries it, and so its scope is a block around that call (`block_ids_are_places`).
-/
import TestProgram.Proofs.Operations
import TestProgram.Proofs.Places

namespace TestProgram

set_option autoImplicit false

/-! ## Ids and paths -/

namespace BlockId

theorem encloses_iff {outer inner : BlockId} :
    outer.encloses inner = true ↔ outer.path <+: inner.path := by
  cases outer with
  | mk first =>
      cases inner with
      | mk second =>
          simp only [encloses, isAncestorOf, Bool.or_eq_true, beq_iff_eq, Bool.and_eq_true,
            decide_eq_true_eq, List.isPrefixOf_iff_prefix, mk.injEq]
          constructor
          · rintro (rfl | ⟨_, encloses⟩)
            · exact List.prefix_refl _
            · exact encloses
          · intro encloses
            by_cases same : first = second
            · exact .inl same
            · refine .inr ⟨?_, encloses⟩
              apply Nat.lt_of_le_of_ne encloses.length_le
              intro length
              exact same (encloses.eq_of_length length)

end BlockId

/-! ## Trees in their places -/

namespace Tree

/-- A tree that hangs at a path: its blocks are named by their paths, and the labels of its
calls, but for those brought along, have blocks around the call as their scopes. -/
structure LaidOut (Brought : Label → Prop) (path : List Nat) (tree : Tree Call) : Prop where
  ids : ∀ place info children, tree.node? place = some (.block info children) →
    info.id.path = path ++ place
  scopes : ∀ place call, tree.node? place = some (.leaf call) → ∀ label ∈ call.labels,
    Brought label ∨ label.scope.path <+: (path ++ place).dropLast

variable {Brought : Label → Prop} {path : List Nat}

theorem laidOut_leaf {call : Call} (scopes : ∀ label ∈ call.labels,
    Brought label ∨ label.scope.path <+: path.dropLast) : LaidOut Brought path (.leaf call) where
  ids place info children found := by cases place <;> cases found
  scopes place other found := by
    cases place with
    | nil =>
        cases found
        rw [List.append_nil]
        exact scopes
    | cons _ _ => cases found

theorem laidOut_block {info : BlockInfo} {children : List (Tree Call)} (here : info.id.path = path)
    (below : ∀ number child, children[number]? = some child →
      LaidOut Brought (path ++ [number]) child) : LaidOut Brought path (.block info children) where
  ids place inner nodes found := by
    cases place with
    | nil =>
        cases found
        rw [List.append_nil]
        exact here
    | cons number rest =>
        obtain ⟨child, listed, further⟩ := node?_cons_iff.mp found
        rw [(below number child listed).ids rest inner nodes further, List.append_assoc,
          List.singleton_append]
  scopes place call found := by
    cases place with
    | nil => cases found
    | cons number rest =>
        obtain ⟨child, listed, further⟩ := node?_cons_iff.mp found
        rw [← List.singleton_append, ← List.append_assoc]
        exact (below number child listed).scopes rest call further

/-- Above every node of a tree there are blocks. -/
theorem exists_block_above {tree node : Tree Call} {outer place : List Nat}
    (found : tree.node? place = some node) (above : outer <+: place) (ne : outer ≠ place) :
    ∃ info children, tree.node? outer = some (.block info children) := by
  obtain ⟨rest, rfl⟩ := above
  rw [node?_append, Option.bind_eq_some_iff] at found
  obtain ⟨inner, here, below⟩ := found
  cases inner with
  | block info children => exact ⟨info, children, here⟩
  | leaf call =>
      cases rest with
      | nil => exact absurd (List.append_nil outer).symm ne
      | cons number rest => cases below

end Tree

/-! ## Open blocks in their places -/

/-- What hangs in an open block hangs at its place, and what waits in it is in scope there. -/
structure OpenBlock.LaidOut (Brought : Label → Prop) (block : OpenBlock) : Prop where
  children : ∀ number (child : Tree Call), block.children[number]? = some child →
    child.LaidOut Brought (block.id.path ++ [number])
  waiting : ∀ label ∈ block.labels, Brought label ∨ label.scope.path <+: block.id.path

/-- The id of a block that opens inside these. -/
def nextId : List OpenBlock → BlockId
  | [] => BlockId.root
  | parent :: _ => parent.id.child parent.children.length

/-- Every open block is named by the place where it will hang. -/
def Nested (Brought : Label → Prop) : List OpenBlock → Prop
  | [] => True
  | block :: outer => block.id = nextId outer ∧ block.LaidOut Brought ∧ Nested Brought outer

section Nested

variable {Brought : Label → Prop}

theorem Nested.suffix : ∀ {blocks kept : List OpenBlock}, Nested Brought blocks →
    kept <:+ blocks → Nested Brought kept
  | [], kept, nested, suffix => by
      rw [List.suffix_nil.mp suffix]
      exact nested
  | block :: outer, kept, nested, suffix => by
      rcases List.suffix_cons_iff.mp suffix with rfl | further
      · exact nested
      · exact nested.2.2.suffix further

/-- A child is hung in at the place after the last. -/
theorem OpenBlock.LaidOut.hung {block : OpenBlock} (laid : block.LaidOut Brought)
    {child : Tree Call} (there : child.LaidOut Brought (block.id.path ++ [block.children.length])) :
    ∀ number (other : Tree Call), (block.children ++ [child])[number]? = some other →
      other.LaidOut Brought (block.id.path ++ [number]) := by
  intro number other listed
  by_cases earlier : number < block.children.length
  · rw [List.getElem?_append_left earlier] at listed
    exact laid.children number other listed
  · have last : number = block.children.length := by
      have short := (List.getElem?_eq_some_iff.mp listed).1
      rw [List.length_append, List.length_singleton] at short
      omega
    subst last
    rw [List.getElem?_concat_length] at listed
    cases listed
    exact there

/-- The block as it is sealed, with a placeholder if something waits, hangs at its place. -/
theorem OpenBlock.LaidOut.sealed {block : OpenBlock} (laid : block.LaidOut Brought)
    (memory : Option MemorySection) :
    (block.flushed memory).toBlock.toTree.LaidOut Brought block.id.path := by
  unfold OpenBlock.flushed
  split
  · exact Tree.laidOut_block rfl laid.children
  · refine Tree.laidOut_block rfl (laid.hung ?_)
    apply Tree.laidOut_leaf
    rw [List.dropLast_concat]
    exact laid.waiting

/-- Labels that calls bring along in a sequence of operations. -/
def BroughtBy (operations : List Operation) (label : Label) : Prop :=
  ∃ call location, Operation.addCall call location ∈ operations ∧ label ∈ call.labels

/-- Each operation keeps open blocks in their places. -/
theorem Nested.step {session : Session} {top : OpenBlock} {outer blocks : List OpenBlock}
    {operation : Operation} {outcome : Except Fault Unit}
    (nested : Nested Brought (top :: outer))
    (brought : ∀ call location, operation = .addCall call location →
      ∀ label ∈ call.labels, Brought label)
    (step : operation.Step session top outer outcome blocks) : Nested Brought blocks := by
  obtain ⟨named, laid, around⟩ := nested
  cases step with
  | opened kind options location =>
      refine ⟨rfl, ⟨?_, ?_⟩, named, ⟨laid.children, ?_⟩, around⟩
      · intro number child listed
        cases listed
      · intro label waits
        apply (laid.waiting label waits).imp id
        intro visible
        exact visible.trans (List.prefix_append _ _)
      · intro label waits
        cases waits
  | @sealed _ _ parent rest closes inside =>
      subst inside
      obtain ⟨parent_named, parent_laid, further⟩ := around
      refine ⟨parent_named, ⟨parent_laid.hung ?_, parent_laid.waiting⟩, further⟩
      have there : top.id.path = parent.id.path ++ [parent.children.length] :=
        congrArg BlockId.path named
      rw [← there]
      exact laid.sealed _
  | refused fault closes suffix inside =>
      exact Nested.suffix (show Nested Brought (top :: outer) from ⟨named, laid, around⟩) suffix
  | appended call location =>
      refine ⟨named, ⟨laid.hung ?_, ?_⟩, around⟩
      · apply Tree.laidOut_leaf
        intro label carried
        rw [List.dropLast_concat]
        rcases List.mem_append.mp carried with waits | own
        · exact laid.waiting label waits
        · exact .inl (brought call location rfl label own)
      · intro label waits
        cases waits
  | declared declaration location made =>
      refine ⟨named, ⟨laid.children, ?_⟩, around⟩
      intro label waits
      rcases List.mem_append.mp waits with earlier | new
      · exact laid.waiting label earlier
      · rw [List.mem_singleton.mp new, Declaration.scope_of_label? made]
        exact .inr (List.prefix_refl _)
  | undeclared => exact ⟨named, laid, around⟩
  | written => exact ⟨named, ⟨laid.children, laid.waiting⟩, around⟩
  | aside => exact ⟨named, laid, around⟩

theorem Nested.after {session : Session} {operations : List Operation}
    (nested : Nested Brought session.blocks) (inside : session.blocks ≠ [])
    (brought : ∀ label, BroughtBy operations label → Brought label) :
    Nested Brought (session.after operations).blocks := by
  induction operations generalizing session with
  | nil => exact nested
  | cons operation rest ih =>
      obtain ⟨top, outer, stack⟩ := Session.exists_innermost inside
      have step := operation.step stack
      refine ih ?_ step.ne_nil ?_
      · refine Nested.step (stack ▸ nested) ?_ step
        rintro call location rfl label carried
        exact brought label ⟨call, location, List.mem_cons_self, carried⟩
      · rintro label ⟨call, location, later, carried⟩
        exact brought label ⟨call, location, List.mem_cons_of_mem _ later, carried⟩

theorem nested_root (kind : BlockKind) : Nested Brought [{ id := BlockId.root, kind }] :=
  ⟨rfl, ⟨(fun _ _ listed => nomatch listed), (fun _ waits => nomatch waits)⟩, trivial⟩

end Nested

/-! ## The tree of a phase -/

/-- The blocks of a tree are named by their places, and the scopes of its labels, but for those
brought along, are blocks around the calls that carry them. -/
structure Tree.NamedByPlaces (Brought : Label → Prop) (tree : Tree Call) : Prop where
  child : ∀ place info children number inner below,
    tree.node? place = some (.block info children) →
    children[number]? = some (.block inner below) → inner.id = info.id.child number
  distinct : ∀ place other info inner children below,
    tree.node? place = some (.block info children) →
    tree.node? other = some (.block inner below) → info.id = inner.id → place = other
  encloses : ∀ place other info inner children below,
    tree.node? place = some (.block info children) →
    tree.node? other = some (.block inner below) →
    (info.id.encloses inner.id = true ↔ place <+: other)
  labels : ∀ place call, tree.node? place = some (.leaf call) → ∀ label ∈ call.labels,
    Brought label ∨ ∃ outer info children, outer <+: place ∧
      tree.node? outer = some (.block info children) ∧ label.scope = info.id

theorem Tree.LaidOut.namedByPlaces {Brought : Label → Prop} {info : BlockInfo}
    {children : List (Tree Call)} (laid : (Tree.block info children).LaidOut Brought []) :
    (Tree.block info children).NamedByPlaces Brought where
  child place outer nodes number inner below found listed := by
    have path := laid.ids _ _ _ (node?_child found listed)
    rw [List.nil_append, ← List.nil_append place, ← laid.ids place outer nodes found] at path
    exact congrArg BlockId.mk path
  distinct place other first second nodes below found also_found same := by
    have path := laid.ids place first nodes found
    rw [same, laid.ids other second below also_found] at path
    exact path.symm
  encloses place other first second nodes below found also_found := by
    rw [BlockId.encloses_iff, laid.ids place first nodes found,
      laid.ids other second below also_found]
    exact Iff.rfl
  labels place call found label carried := by
    apply (laid.scopes place call found label carried).imp id
    intro above
    rw [List.nil_append] at above
    have inner : place ≠ [] := by
      rintro rfl
      cases found
    have strict : label.scope.path ≠ place := by
      intro same
      have shorter := above.length_le
      rw [same, List.length_dropLast] at shorter
      have := List.length_pos_iff.mpr inner
      omega
    have prefixes : label.scope.path <+: place := above.trans (List.dropLast_prefix place)
    obtain ⟨outer, nodes, there⟩ := exists_block_above found prefixes strict
    refine ⟨label.scope.path, outer, nodes, prefixes, there, ?_⟩
    exact congrArg BlockId.mk (laid.ids _ outer nodes there).symm

/-- What is declared or referred to at a moment has the innermost open block as its scope, and
this one is named by the place where it will hang. -/
def Session.ScopesInnermost (session : Session) : Prop :=
  ∃ top outer, session.blocks = top :: outer ∧ top.id = nextId outer ∧
    (∀ name, (Session.labelReference name session).scope = top.id) ∧
    (∀ index forward location reference,
      Session.numericReference index forward location session = .ok reference →
      reference.scope = top.id) ∧
    ∀ declaration location, ∃ made : List Label,
      ((Operation.declare declaration location).perform session).2.blocks =
        { top with labels := top.labels ++ made } :: outer ∧
      ∀ label ∈ made, label.scope = top.id

theorem Nested.scopesInnermost {Brought : Label → Prop} {session : Session}
    (nested : Nested Brought session.blocks) (inside : session.blocks ≠ []) :
    session.ScopesInnermost := by
  obtain ⟨top, outer, stack⟩ := Session.exists_innermost inside
  have scope := Session.scope_eq stack
  rw [stack] at nested
  refine ⟨top, outer, stack, nested.1, fun name => scope, ?_, ?_⟩
  · intro index forward location reference made
    obtain ⟨slot, _, made⟩ := Except.bind_ok_iff.mp (Except.mapError_ok_iff.mp made)
    cases made
    exact scope
  · intro declaration location
    rcases Session.declaration_cases stack declaration location with
      ⟨label, made, run⟩ | ⟨none, fault, run⟩
    · refine ⟨[label], ?_, ?_⟩
      · rw [show (Operation.declare declaration location).perform session = _ from run]
      · intro other member
        rw [List.mem_singleton.mp member]
        exact Declaration.scope_of_label? made
    · refine ⟨[], ?_, fun _ member => nomatch member⟩
      rw [show (Operation.declare declaration location).perform session = _ from run, stack,
        List.append_nil]

/-- **Blocks are named by their places.**  Whatever operations the body of a phase performs, with
whatever failures it recovers from, the sealed block of the phase has the root id, and in its tree
child number `i` of a block has that block's id extended by `i`.  So ids are different, and one
encloses another exactly when its block is that block or stands around it.  At every moment of
the body labels and references get the id of the innermost open block as their scope, and the
labels in the tree have as theirs a block around the call that carries them. -/
theorem block_ids_are_places {ε : Type} (kind : PhaseKind) (body : Act ε Unit)
    (studio after : Studio ε) (operations : List Operation) (phase : Phase)
    (closed : studio.session.blocks = [])
    (performs : Act.Performs body (Act.bodyStart kind studio) operations)
    (run : Act.runPhase kind body studio = (.ok phase, after)) :
    phase.block.info.id = BlockId.root ∧
      phase.block.toTree.NamedByPlaces (BroughtBy operations) ∧
      ∀ earlier, earlier <+: operations →
        ((Act.bodyStart kind studio).session.after earlier).ScopesInnermost := by
  have started := Act.bodyStart_blocks closed run
  have inside : (Act.bodyStart kind studio).session.blocks ≠ [] := by
    rw [started]
    exact List.cons_ne_nil _ _
  have nested : ∀ earlier, earlier <+: operations → Nested (BroughtBy operations)
      ((Act.bodyStart kind studio).session.after earlier).blocks := by
    intro earlier part
    refine Nested.after (by rw [started]; exact nested_root _) inside ?_
    rintro label ⟨call, location, performed, carried⟩
    exact ⟨call, location, part.subset performed, carried⟩
  obtain ⟨block, ends⟩ := Act.runPhase_ends run
  have ended : (Act.bodyEnd kind body studio).session = _ := performs
  have laid := nested operations (List.prefix_refl _)
  rw [← ended, ends.only] at laid
  have root : block.id.path = [] := congrArg BlockId.path ends.root
  have sealed := laid.2.1.sealed (Act.bodyEnd kind body studio).session.currentSection
  rw [← ends.sealed, root] at sealed
  refine ⟨?_, sealed.namedByPlaces, ?_⟩
  · exact congrArg BlockId.mk (sealed.ids [] phase.block.info phase.block.children rfl)
  · intro earlier part
    exact (nested earlier part).scopesInnermost (Session.after_ne_nil inside earlier)

/-- A block whose body fails, and another one in its place. -/
def recovering : Act Unit Unit := do
  let _ ← Act.attempt (Act.scopedBlock .sequence {} written do
    call "lost"
    throw (Fault.of .unnamedSection))
  Act.scopedBlock .sequence {} written do
    Act.session (Operation.perform (.declare (.label "here") written))
    call "kept"
where
  written : Location := .caller "template" 1 1
  call (name : String) : Act Unit Unit :=
    Act.session (Operation.perform (.addCall { name } written))

theorem recovering_contextual : recovering.Contextual := by
  refine (Act.Contextual.attempt ?_).bind (fun _ => ?_)
  · apply Act.Contextual.scopedBlock
    exact (Act.contextual_operation _).bind (fun _ => (Act.aloof_throw _).contextual)
  · apply Act.Contextual.scopedBlock
    exact (Act.contextual_operation _).bind (fun _ => Act.contextual_operation _)

theorem block_ids_are_places_recovering :
    ∃ operations phase after,
      Act.Performs recovering (Act.bodyStart .pre ⟨Session.new {}, ()⟩) operations ∧
      Act.runPhase .pre recovering ⟨Session.new {}, ()⟩ = (.ok phase, after) ∧
      phase.block.info.id = BlockId.root ∧
      phase.block.toTree.NamedByPlaces (BroughtBy operations) := by
  have succeeds : (Act.runPhase .pre recovering ⟨Session.new {}, ()⟩).1.isOk = true := by
    decide +kernel
  obtain ⟨phase, after, run⟩ := Act.exists_ok succeeds
  have closed : (⟨Session.new {}, ()⟩ : Studio Unit).session.blocks = [] := rfl
  have inside : (Act.bodyStart .pre ⟨Session.new {}, ()⟩ : Studio Unit).session.blocks ≠ [] := by
    rw [Act.bodyStart_blocks closed run]
    exact List.cons_ne_nil _ _
  obtain ⟨operations, performs⟩ := recovering_contextual _ inside
  have named := block_ids_are_places .pre recovering ⟨Session.new {}, ()⟩ after operations phase
    closed performs run
  exact ⟨operations, phase, after, performs, run, named.1, named.2.1⟩

end TestProgram
