/-
# TestProgram.Proofs.Carriers -- which call carries what waits

Labels, texts and comments have no place in a tree of their own.  They wait in the innermost open
block for a call: one that is added, or the placeholder that a block gets when it closes first.
What becomes of something that waits is a matter of the rest of the run (`Session.Fate`).  The
next call that is hung into the tree carries it, unless the block in which it waits is thrown away
before.  A call that hangs in an open block comes to stand in the tree of the phase if this block
is sealed, and the one around it, and so on (`Session.retains`).

What a single deed does to all that hangs and waits is said once, in `Deed.Handling`; that one of
the fates is met follows by induction on the deeds (`Session.EndsIn.fate`).
-/
import TestProgram.Proofs.PhaseHistories
import TestProgram.Proofs.Places

namespace TestProgram

set_option autoImplicit false

/-! ## What waits and what carries it -/

/-- Something that waits for a call: a label, or a text or comment. -/
inductive Item
  | label (label : Label)
  | output (output : Output)

def Item.AmongThose (labels : List Label) (outputs : List Output) : Item → Prop
  | .label declared => declared ∈ labels
  | .output written => written ∈ outputs

theorem Item.AmongThose.mono {labels more : List Label} {outputs others : List Output} {item : Item}
    (among : item.AmongThose labels outputs) (subset : labels ⊆ more)
    (also_subset : outputs ⊆ others) : item.AmongThose more others := by
  cases item with
  | label label => exact subset among
  | output output => exact also_subset among

def Call.Carries (call : Call) (item : Item) : Prop :=
  item.AmongThose call.labels call.outputs

namespace OpenBlock

/-- The call with what waits in the block in front of its own. -/
def taking (block : OpenBlock) (call : Call) : Call :=
  { call with labels := block.labels ++ call.labels, outputs := block.outputs ++ call.outputs }

/-- The call that carries what still waits in the block when it closes. -/
def placeholder? (block : OpenBlock) (memory : Option MemorySection) : Option Call :=
  if block.labels.isEmpty && block.outputs.isEmpty then none
  else some
    { name := "", labels := block.labels, outputs := block.outputs, memory,
      location := block.location }

variable {block : OpenBlock} {memory : Option MemorySection}

theorem children_flushed (block : OpenBlock) (memory : Option MemorySection) :
    (block.flushed memory).children =
      block.children ++ (block.placeholder? memory).toList.map Tree.leaf := by
  unfold flushed placeholder?
  split
  · exact (List.append_nil _).symm
  · rfl

/-- What waits in a block is carried by its placeholder. -/
theorem exists_placeholder {item : Item} (waits : item.AmongThose block.labels block.outputs)
    (memory : Option MemorySection) :
    ∃ call, block.placeholder? memory = some call ∧ call.Carries item ∧ call.memory = memory := by
  unfold placeholder?
  split
  · rename_i silent
    obtain ⟨no_labels, no_outputs⟩ := Bool.and_eq_true_iff.mp silent
    rw [List.isEmpty_iff.mp no_labels, List.isEmpty_iff.mp no_outputs] at waits
    cases item <;> cases waits
  · exact ⟨_, rfl, waits, rfl⟩

theorem mem_flushed {call : Call} (hangs : call ∈ Tree.callsOf block.children ∨
    block.placeholder? memory = some call) :
    call ∈ Tree.callsOf (block.flushed memory).children := by
  rw [children_flushed, Tree.callsOf_append]
  rcases hangs with before | waits
  · exact List.mem_append_left _ before
  · rw [waits]
    exact List.mem_append_right _ List.mem_cons_self

/-- A sealed block as a child of the one around it. -/
def hang (child : Tree Call) (block : OpenBlock) : OpenBlock :=
  { block with children := block.children ++ [child] }

theorem mem_hang {child : Tree Call} {call : Call}
    (hangs : call ∈ Tree.callsOf block.children ∨ call ∈ child.calls) :
    call ∈ Tree.callsOf (block.hang child).children := by
  show call ∈ Tree.callsOf (block.children ++ [child])
  rw [Tree.callsOf_append]
  rcases hangs with before | below
  · exact List.mem_append_left _ before
  · exact List.mem_append_right _ (Tree.mem_callsOf_of_mem (List.mem_singleton_self _) below)

theorem mem_append {call added : Call}
    (hangs : call ∈ Tree.callsOf block.children ∨ call = block.taking added) :
    call ∈ Tree.callsOf (Session.OpenBlock.append block added).children := by
  show call ∈ Tree.callsOf (block.hang (.leaf (block.taking added))).children
  refine mem_hang ?_
  rcases hangs with before | rfl
  · exact .inl before
  · exact .inr (List.mem_singleton_self _)

end OpenBlock

/-! ## Deeds in a body -/

/-- The placeholder that comes into the tree when the handle is used, if there is one. -/
def Session.placeholderOf? (session : Session) (handle : BlockHandle) : Option Call :=
  if (Session.closeBlock handle session).1.isOk then
    session.blocks.head?.bind (fun top => top.placeholder? session.currentSection)
  else none

/-- The call that a deed in the body of a phase hangs into the tree, if it hangs one: a call that
is added takes what waits, and a block that is sealed may get a placeholder. -/
def Deed.hung? (session : Session) : Deed → Option Call
  | .addCall call location => session.blocks.head?.map (fun top =>
      top.taking (session.completeCall
        { call with location := some (call.location.getD location) }))
  | .closeBlock handle => session.placeholderOf? handle
  | .leaveBlock handle _ (.ok _) => session.placeholderOf? handle
  | _ => none

/-- The section that a call brings along. -/
def Deed.ownSection? : Deed → Option MemorySection
  | .addCall call _ => call.memory
  | _ => none

/-- What a deed declares, if it succeeds. -/
def Deed.item? (session : Session) : Deed → Option Item
  | .declare declaration _ => (declaration.label? session.scope).map Item.label
  | .write output _ => some (.output output)
  | _ => none

namespace Deed

variable {deed : Deed} {session : Session}

theorem memory_placeholderOf {handle : BlockHandle} {call : Call}
    (hangs : session.placeholderOf? handle = some call) : call.memory = session.currentSection := by
  unfold Session.placeholderOf? at hangs
  split at hangs
  · obtain ⟨top, _, waits⟩ := Option.bind_eq_some_iff.mp hangs
    unfold OpenBlock.placeholder? at waits
    split at waits <;> cases waits
    rfl
  · cases hangs

/-- A call has the section that it brings, or else the one that is open. -/
theorem memory_of_hung {call : Call} (hangs : deed.hung? session = some call) :
    call.memory = deed.ownSection?.or session.currentSection := by
  cases deed with
  | addCall added location =>
      obtain ⟨top, _, rfl⟩ := Option.map_eq_some_iff.mp hangs
      rfl
  | closeBlock handle => exact memory_placeholderOf hangs
  | leaveBlock handle location body =>
      cases body with
      | error fault => cases hangs
      | ok _ => exact memory_placeholderOf hangs
  | _ => cases hangs

end Deed

/-! ## What a deed does to what hangs and waits -/

namespace Session

variable {session : Session} {top : OpenBlock} {outer : List OpenBlock}

theorem blocks_inBlock (what : String) (change : OpenBlock → OpenBlock) (session : Session) :
    (inBlock what change session).2.blocks = session.blocks.modifyHead change := by
  unfold inBlock
  split
  · rename_i innermost outer stack
    rw [stack]
    rfl
  · rename_i none_open
    rw [none_open]
    rfl

theorem inBlock_closed (what : String) (change : OpenBlock → OpenBlock)
    (closed : session.blocks = []) : (inBlock what change session).1.isOk = false := by
  simp only [inBlock, closed]
  rfl

theorem blocks_write (output : Output) (location : Location) (session : Session) :
    ((Operation.write output location).perform session).2.blocks =
      session.blocks.modifyHead (fun top => { top with outputs := top.outputs ++ [output] }) := by
  cases output <;> exact blocks_inBlock _ _ session

theorem isOk_located {α : Type} (location : Location) (outcome : Except Fault α) :
    (located location outcome).isOk = outcome.isOk := by
  cases outcome <;> rfl

theorem write_closed (output : Output) (location : Location) (closed : session.blocks = []) :
    ((Operation.write output location).perform session).1.isOk = false := by
  cases output <;> exact (isOk_located _ _).trans (inBlock_closed _ _ closed)

theorem declare_closed (declaration : Declaration) (location : Location)
    (closed : session.blocks = []) : (declaration.perform location session).1.isOk = false := by
  cases declaration with
  | numericLabel index =>
      refine (isOk_located _ _).trans ?_
      cases NumericSlot.ofInt index with
      | error fault => rfl
      | ok slot => exact inBlock_closed _ _ closed
  | _ => exact (isOk_located _ _).trans (inBlock_closed _ _ closed)

theorem placeholderOf_sealed {handle : BlockHandle} {sealed : Block Call} {after : Session}
    (stack : session.blocks = top :: outer)
    (run : closeBlock handle session = (.ok sealed, after)) :
    session.placeholderOf? handle = top.placeholder? session.currentSection := by
  rw [placeholderOf?, run, stack]
  rfl

theorem placeholderOf_refused {handle : BlockHandle} {fault : Fault} {after : Session}
    (run : closeBlock handle session = (.error fault, after)) :
    session.placeholderOf? handle = none := by
  rw [placeholderOf?, run]
  rfl

end Session

/-- What a deed in the body of a phase does to the open blocks, and which call it hangs into the
tree. -/
inductive Deed.Handling (deed : Deed) (session : Session) : Prop
  /-- A block is opened and takes over what waits. -/
  | opens (hangs : deed.hung? session = none) (block : OpenBlock)
      (takes : ∀ top ∈ session.blocks.head?,
        block.labels = top.labels ∧ block.outputs = top.outputs)
      (blocks : (deed.perform session).2.blocks =
        block :: session.blocks.modifyHead OpenBlock.handedOver)
  | calls (call : Call) (hangs : deed.hung? session = session.blocks.head?.map (·.taking call))
      (blocks : (deed.perform session).2.blocks =
        session.blocks.modifyHead (Session.OpenBlock.append · call))
  /-- The innermost block is sealed and hung into the one around it, if there is one. -/
  | seals {top : OpenBlock} {outer : List OpenBlock} (stack : session.blocks = top :: outer)
      (hangs : deed.hung? session = top.placeholder? session.currentSection)
      (blocks : (deed.perform session).2.blocks =
        outer.modifyHead (.hang (top.flushed session.currentSection).toBlock.toTree))
  | adds (hangs : deed.hung? session = none) (labels : List Label) (outputs : List Output)
      (blocks : (deed.perform session).2.blocks = session.blocks.modifyHead (fun top =>
        { top with labels := top.labels ++ labels, outputs := top.outputs ++ outputs }))
  /-- Innermost blocks may be thrown away, which is a failure. -/
  | lowers (hangs : deed.hung? session = none)
      (kept : (deed.perform session).2.blocks <:+ session.blocks)
      (fails : (deed.perform session).1.isOk = true →
        (deed.perform session).2.blocks = session.blocks)

namespace Deed

variable {session : Session}

theorem Handling.same {deed : Deed} (hangs : deed.hung? session = none)
    (same : (deed.perform session).2.blocks = session.blocks) : deed.Handling session :=
  .lowers hangs (same ▸ List.suffix_refl _) (fun _ => same)

theorem Handling.failed {deed : Deed} (hangs : deed.hung? session = none)
    (kept : (deed.perform session).2.blocks <:+ session.blocks)
    (fails : (deed.perform session).1.isOk = false) : deed.Handling session := by
  refine .lowers hangs kept (fun succeeds => ?_)
  cases fails.symm.trans succeeds

theorem openBlock_handling (kind : BlockKind) (options : BlockOptions)
    (location : Option Location) : (openBlock kind options location).Handling session := by
  have performed : ((openBlock kind options location).perform session).2 =
      (Session.openBlock kind options location session).2 := rfl
  cases stack : session.blocks with
  | nil =>
      by_cases running : session.lifecycle.isRunning = true
      · refine .opens rfl { id := BlockId.root, kind, options, location } ?_ ?_
        · rw [stack]
          intro top none_open
          cases none_open
        · rw [performed, stack]
          simp only [Session.openBlock, stack, if_pos running]
          rfl
      · refine .same rfl ?_
        rw [performed]
        simp only [Session.openBlock, stack, if_neg running]
  | cons top outer =>
      refine .opens rfl { id := top.id.child top.children.length, kind, options, location
                          labels := top.labels, outputs := top.outputs } ?_ ?_
      · rw [stack]
        intro parent innermost
        cases innermost
        exact ⟨rfl, rfl⟩
      · rw [performed, Session.openBlock_run kind options location stack, stack]
        rfl

theorem closeBlock_handling (handle : BlockHandle) : (closeBlock handle).Handling session := by
  rcases run : Session.closeBlock handle session with ⟨outcome, after⟩
  have performed : (closeBlock handle).perform session = (outcome.map (fun _ => ()), after) := by
    simp only [perform, Computation.quietly, run]
  cases Session.closeBlock_closing run with
  | refused fault =>
      refine .same (Session.placeholderOf_refused run) ?_
      rw [performed]
  | dropped fault stack height =>
      refine .failed (Session.placeholderOf_refused run) ?_ (by rw [performed]; rfl)
      rw [performed, stack]
      exact List.suffix_cons _ _
  | sealed stack height fits registry hung =>
      refine .seals stack (Session.placeholderOf_sealed stack run) ?_
      rw [performed]
      exact hung

theorem leaveBlock_handling (handle : BlockHandle) (location : Location)
    (body : Except Fault Unit) : (leaveBlock handle location body).Handling session := by
  cases body with
  | error fault => exact .failed rfl (Session.discardAbove_suffix _ _) rfl
  | ok _ =>
      rcases run : Session.closeBlock handle session with ⟨outcome, after⟩
      have performed : (leaveBlock handle location (.ok ())).perform session =
          (outcome.map (fun _ => ()), after.discardAbove handle.depth) := by
        simp only [perform, Session.leaveBlock, run]
      cases Session.closeBlock_closing run with
      | refused fault =>
          refine .failed (Session.placeholderOf_refused run) ?_ (by rw [performed]; rfl)
          rw [performed]
          exact Session.discardAbove_suffix _ _
      | dropped fault stack height =>
          refine .failed (Session.placeholderOf_refused run) ?_ (by rw [performed]; rfl)
          rw [performed]
          refine (Session.discardAbove_suffix _ _).trans ?_
          rw [stack]
          exact List.suffix_cons _ _
      | sealed stack height fits registry hung =>
          refine .seals stack (Session.placeholderOf_sealed stack run) ?_
          rw [performed, Session.discardAbove, hung, List.length_modifyHead, height, Nat.sub_self]
          rfl

theorem addCall_handling (call : Call) (location : Location) :
    (addCall call location).Handling session := by
  refine .calls (session.completeCall
    { call with location := some (call.location.getD location) }) rfl ?_
  exact Session.blocks_inBlock "instruction" _ session

theorem declare_handling (declaration : Declaration) (location : Location) :
    (declare declaration location).Handling session := by
  cases stack : session.blocks with
  | nil =>
      have amends : session.Amends (declaration.perform location session).2 :=
        Session.declare_amends declaration location
      obtain ⟨change, left, _⟩ := amends
      refine .same rfl ?_
      rw [show (declare declaration location).perform session = declaration.perform location session
        from rfl, left, stack]
      rfl
  | cons top outer =>
      rcases Session.declaration_cases stack declaration location with
        ⟨label, made, run⟩ | ⟨none, fault, run⟩
      · refine .adds rfl [label] [] ?_
        rw [show (declare declaration location).perform session = _ from run, stack]
        simp
      · refine .same rfl ?_
        rw [show (declare declaration location).perform session = _ from run]

theorem write_handling (output : Output) (location : Location) :
    (write output location).Handling session := by
  refine .adds rfl [] [output] ?_
  rw [show (write output location).perform session = (Operation.write output location).perform
    session from rfl, Session.blocks_write]
  simp only [List.append_nil]

/-- Each deed in the body of a phase does one of these things. -/
theorem Late.handling {deed : Deed} (late : deed.Late session) : deed.Handling session := by
  have apart : Component.blocks ∉ deed.touches → deed.hung? session = none →
      deed.Handling session :=
    fun untouched hangs => .same hangs (deed.frame session untouched)
  rcases late with quiet | ⟨rfl, begun⟩
  · cases deed with
    | openBlock kind options location => exact openBlock_handling kind options location
    | closeBlock handle => exact closeBlock_handling handle
    | leaveBlock handle location body => exact leaveBlock_handling handle location body
    | addCall call location => exact addCall_handling call location
    | declare declaration location => exact declare_handling declaration location
    | write output location => exact write_handling output location
    | beginPhase kind => exact quiet.elim
    | endPhase kind body => exact quiet.elim
    | register pre main post => exact quiet.elim
    | _ => exact apart (by simp [touches]) rfl
  · refine .same rfl ?_
    show (Session.beginPhase .pre session).2.blocks = session.blocks
    rw [Session.beginPhase_late begun]

end Deed

/-! ## Calls that hang in open blocks -/

/-- The call stands below the block that is open at this height; the outermost is at height one. -/
def HangsAt (height : Nat) (call : Call) (blocks : List OpenBlock) : Prop :=
  ∃ inner block outer, blocks = inner ++ block :: outer ∧ outer.length + 1 = height ∧
    call ∈ Tree.callsOf block.children

section Hanging

variable {height : Nat} {call : Call} {blocks : List OpenBlock}

theorem HangsAt.le_length (hangs : HangsAt height call blocks) :
    0 < height ∧ height ≤ blocks.length := by
  obtain ⟨inner, block, outer, rfl, rfl, _⟩ := hangs
  simp

theorem hangsAt_top {top : OpenBlock} {outer : List OpenBlock}
    (hangs : call ∈ Tree.callsOf top.children) : HangsAt (outer.length + 1) call (top :: outer) :=
  ⟨[], top, outer, rfl, rfl, hangs⟩

theorem HangsAt.cons (hangs : HangsAt height call blocks) (top : OpenBlock) :
    HangsAt height call (top :: blocks) := by
  obtain ⟨inner, block, outer, rfl, at_height, inside⟩ := hangs
  exact ⟨top :: inner, block, outer, rfl, at_height, inside⟩

/-- Nothing that hangs is lost by a change of the innermost block that keeps what hangs there. -/
theorem HangsAt.modifyHead (hangs : HangsAt height call blocks) {change : OpenBlock → OpenBlock}
    (keeps : ∀ block, call ∈ Tree.callsOf block.children →
      call ∈ Tree.callsOf (change block).children) :
    HangsAt height call (blocks.modifyHead change) := by
  obtain ⟨inner, block, outer, rfl, rfl, inside⟩ := hangs
  cases inner with
  | nil => exact hangsAt_top (keeps block inside)
  | cons top rest => exact ⟨change top :: rest, block, outer, rfl, rfl, inside⟩

/-- What hangs at a height stays when innermost blocks above it go. -/
theorem HangsAt.suffix (hangs : HangsAt height call blocks) {kept : List OpenBlock}
    (suffix : kept <:+ blocks) (high : height ≤ kept.length) : HangsAt height call kept := by
  obtain ⟨inner, block, outer, rfl, rfl, inside⟩ := hangs
  have below : block :: outer <:+ kept :=
    List.suffix_of_suffix_length_le (List.suffix_append inner (block :: outer)) suffix high
  obtain ⟨left, rfl⟩ := below
  exact ⟨left, block, outer, rfl, rfl, inside⟩

/-- At the height of the stack hangs what hangs in the innermost block. -/
theorem HangsAt.innermost {top : OpenBlock} {outer : List OpenBlock}
    (hangs : HangsAt height call (top :: outer)) (high : outer.length < height) :
    call ∈ Tree.callsOf top.children := by
  obtain ⟨inner, block, below, stack, rfl, inside⟩ := hangs
  have heights := congrArg List.length stack
  rw [List.length_cons, List.length_append, List.length_cons] at heights
  obtain rfl := List.eq_nil_of_length_eq_zero (l := inner) (by omega)
  obtain ⟨rfl, rfl⟩ := List.cons.inj stack
  exact inside

/-- What hangs in a block hangs in the one around it when the block is sealed. -/
theorem hangsAt_sealed {outer : List OpenBlock} {top : OpenBlock} (around : outer ≠ [])
    (hangs : call ∈ Tree.callsOf top.children) :
    HangsAt outer.length call (outer.modifyHead (.hang top.toBlock.toTree)) := by
  obtain ⟨parent, rest, rfl⟩ := List.exists_cons_of_ne_nil around
  exact hangsAt_top (OpenBlock.mem_hang (.inr hangs))

end Hanging

namespace Deed.Handling

variable {deed : Deed} {session : Session} {call : Call} {height : Nat}
  (handling : deed.Handling session)

include handling

/-- What hangs in a block that stays open stays there. -/
theorem keeps (hangs : HangsAt height call session.blocks)
    (high : height ≤ (deed.perform session).2.blocks.length) :
    HangsAt height call (deed.perform session).2.blocks := by
  cases handling with
  | opens _ block takes blocks =>
      have below : HangsAt height call (session.blocks.modifyHead OpenBlock.handedOver) :=
        hangs.modifyHead (fun _ inside => inside)
      rw [blocks]
      exact below.cons block
  | calls added _ blocks =>
      rw [blocks]
      exact hangs.modifyHead (fun _ inside => OpenBlock.mem_append (.inl inside))
  | seals stack _ blocks =>
      rw [blocks] at high ⊢
      rw [List.length_modifyHead] at high
      have below := hangs.suffix (stack ▸ List.suffix_cons _ _) high
      exact below.modifyHead (fun _ inside => OpenBlock.mem_hang (.inl inside))
  | adds _ labels outputs blocks =>
      rw [blocks]
      exact hangs.modifyHead (fun _ inside => inside)
  | lowers _ kept fails => exact hangs.suffix kept high

/-- What hangs in a block that is sealed hangs in the one around it, unless this was the
outermost. -/
theorem hands_up (hangs : HangsAt height call session.blocks)
    (low : (deed.perform session).2.blocks.length < height)
    (succeeds : (deed.perform session).1.isOk = true) :
    height = 1 ∨ HangsAt (height - 1) call (deed.perform session).2.blocks := by
  have above := hangs.le_length.2
  cases handling with
  | opens _ block takes blocks =>
      rw [blocks, List.length_cons, List.length_modifyHead] at low
      omega
  | calls added _ blocks =>
      rw [blocks, List.length_modifyHead] at low
      omega
  | @seals top outer stack _ blocks =>
      rw [stack, List.length_cons] at above
      rw [blocks, List.length_modifyHead] at low
      rw [stack] at hangs
      have inside : call ∈ Tree.callsOf (top.flushed session.currentSection).children :=
        OpenBlock.mem_flushed (.inl (hangs.innermost low))
      by_cases outermost : outer = []
      · subst outermost
        exact .inl (Nat.le_antisymm above hangs.le_length.1)
      · rw [blocks, show height - 1 = outer.length by omega]
        exact .inr (hangsAt_sealed outermost inside)
  | adds _ labels outputs blocks =>
      rw [blocks, List.length_modifyHead] at low
      omega
  | lowers _ kept fails =>
      rw [fails succeeds] at low
      omega

/-- A call that is hung into the tree hangs in the innermost block, if one is open then. -/
theorem hangs (hung : deed.hung? session = some call)
    (inside : (deed.perform session).2.blocks ≠ []) :
    HangsAt (deed.perform session).2.blocks.length call (deed.perform session).2.blocks := by
  cases handling with
  | opens none_hung => cases none_hung.symm.trans hung
  | calls added takes blocks =>
      obtain ⟨top, innermost, rfl⟩ := Option.map_eq_some_iff.mp (takes.symm.trans hung)
      obtain ⟨outer, stack⟩ := List.head?_eq_some_iff.mp innermost
      rw [blocks, stack]
      exact hangsAt_top (OpenBlock.mem_append (.inr rfl))
  | @seals top outer stack takes blocks =>
      rw [blocks] at inside ⊢
      rw [List.length_modifyHead]
      refine hangsAt_sealed ?_ (OpenBlock.mem_flushed (.inr (takes.symm.trans hung)))
      rintro rfl
      exact inside rfl
  | adds none_hung => cases none_hung.symm.trans hung
  | lowers none_hung => cases none_hung.symm.trans hung

end Deed.Handling

/-! ## Runs of the body -/

/-- Whether what hangs in the block at a height comes to stand in the tree of the phase: as often
as this block, or the one it has been hung into, is closed, it is sealed, and one of them is open
in the end. -/
def Session.retains (session : Session) (height : Nat) : List Deed → Bool
  | [] => decide (0 < height)
  | deed :: rest =>
      if height ≤ (deed.perform session).2.blocks.length then
        (deed.perform session).2.retains height rest
      else
        (deed.perform session).1.isOk && (deed.perform session).2.retains (height - 1) rest

/-- Whether what hangs in the innermost block comes to stand in the tree of the phase. -/
def Session.retainsInnermost (session : Session) (deeds : List Deed) : Bool :=
  session.retains session.blocks.length deeds

/-- Deeds in the body of a phase, wherever they are done once it has begun. -/
def Deed.AllLate (deeds : List Deed) : Prop :=
  ∀ deed ∈ deeds, ∀ session : Session, session.lifecycle ≠ .created → deed.Late session

namespace Session

variable {session : Session} {deeds : List Deed} {call : Call}

theorem not_retains_zero (session : Session) (deeds : List Deed) :
    session.retains 0 deeds = false := by
  induction deeds generalizing session with
  | nil => rfl
  | cons deed rest ih =>
      rw [retains, if_pos (Nat.zero_le _)]
      exact ih _

/-- What hangs in a block that is retained hangs in an open one to the end. -/
theorem retains_hangs {height : Nat} (late : Deed.AllLate deeds)
    (begun : session.lifecycle ≠ .created) (hangs : HangsAt height call session.blocks)
    (retained : session.retains height deeds = true) :
    ∃ last, HangsAt last call (session.through deeds).blocks := by
  induction deeds generalizing session height with
  | nil => exact ⟨height, hangs⟩
  | cons deed rest ih =>
      have handling := (late deed List.mem_cons_self session begun).handling
      have later : Deed.AllLate rest := fun other member => late other (.tail _ member)
      rw [retains] at retained
      by_cases high : height ≤ (deed.perform session).2.blocks.length
      · rw [if_pos high] at retained
        exact ih later (deed.begun begun) (handling.keeps hangs high) retained
      · rw [if_neg high, Bool.and_eq_true] at retained
        obtain ⟨succeeds, retained⟩ := retained
        rcases handling.hands_up hangs (Nat.not_le.mp high) succeeds with rfl | around
        · rw [not_retains_zero] at retained
          cases retained
        · exact ih later (deed.begun begun) around retained

end Session

/-! ## Items that wait -/

/-- The item waits in the innermost block. -/
def WaitsIn (item : Item) (blocks : List OpenBlock) : Prop :=
  ∃ top ∈ blocks.head?, item.AmongThose top.labels top.outputs

namespace Deed.Handling

variable {deed : Deed} {session : Session} {item : Item} (handling : deed.Handling session)

include handling

/-- The next call that is hung into the tree carries what waits. -/
theorem carries {call : Call} (waits : WaitsIn item session.blocks)
    (hung : deed.hung? session = some call) : call.Carries item := by
  obtain ⟨top, innermost, among⟩ := waits
  cases handling with
  | opens none_hung => cases none_hung.symm.trans hung
  | calls added takes blocks =>
      rw [takes, innermost] at hung
      cases hung
      exact among.mono (List.subset_append_left _ _) (List.subset_append_left _ _)
  | seals stack takes blocks =>
      rw [stack] at innermost
      cases innermost
      obtain ⟨placeholder, there, carries, _⟩ := top.exists_placeholder among _
      cases hung.symm.trans (takes.trans there)
      exact carries
  | adds none_hung => cases none_hung.symm.trans hung
  | lowers none_hung => cases none_hung.symm.trans hung

/-- What waits goes on waiting if no call is hung into the tree and no block is thrown away. -/
theorem waits (waits : WaitsIn item session.blocks) (quiet : deed.hung? session = none)
    (stays : session.blocks.length ≤ (deed.perform session).2.blocks.length) :
    WaitsIn item (deed.perform session).2.blocks := by
  obtain ⟨top, innermost, among⟩ := waits
  obtain ⟨outer, stack⟩ := List.head?_eq_some_iff.mp innermost
  cases handling with
  | opens _ block takes blocks =>
      obtain ⟨labels, outputs⟩ := takes top innermost
      rw [blocks]
      exact ⟨block, rfl, labels ▸ outputs ▸ among⟩
  | calls added takes blocks =>
      rw [takes, innermost] at quiet
      cases quiet
  | seals sealing takes blocks =>
      rw [blocks, List.length_modifyHead, sealing, List.length_cons] at stays
      omega
  | adds _ labels outputs blocks =>
      rw [blocks, stack]
      exact ⟨_, rfl, among.mono (List.subset_append_left _ _) (List.subset_append_left _ _)⟩
  | lowers _ kept fails =>
      rw [kept.eq_of_length_le stays]
      exact ⟨top, innermost, among⟩

/-- What waits is thrown away by deeds that fail only. -/
theorem fails (waits : WaitsIn item session.blocks) (quiet : deed.hung? session = none)
    (gone : (deed.perform session).2.blocks.length < session.blocks.length) :
    (deed.perform session).1.isOk = false := by
  obtain ⟨top, innermost, among⟩ := waits
  cases handling with
  | opens _ block takes blocks =>
      rw [blocks, List.length_cons, List.length_modifyHead] at gone
      omega
  | calls added takes blocks =>
      rw [blocks, List.length_modifyHead] at gone
      exact absurd gone (Nat.lt_irrefl _)
  | seals stack takes blocks =>
      rw [stack] at innermost
      cases innermost
      obtain ⟨placeholder, there, _⟩ := top.exists_placeholder among _
      cases quiet.symm.trans (takes.trans there)
  | adds _ labels outputs blocks =>
      rw [blocks, List.length_modifyHead] at gone
      exact absurd gone (Nat.lt_irrefl _)
  | lowers _ kept same =>
      refine Bool.eq_false_iff.mpr (fun succeeds => ?_)
      rw [same succeeds] at gone
      exact Nat.lt_irrefl _ gone

end Deed.Handling

namespace Session

variable {session : Session} {item : Item}

/-- What is declared waits in the innermost block. -/
theorem declared_waits {deed : Deed} (declared : deed.item? session = some item)
    (succeeds : (deed.perform session).1.isOk = true) :
    WaitsIn item (deed.perform session).2.blocks := by
  cases deed with
  | declare declaration location =>
      obtain ⟨label, made, rfl⟩ := Option.map_eq_some_iff.mp declared
      cases stack : session.blocks with
      | nil => cases (declare_closed declaration location stack).symm.trans succeeds
      | cons top outer =>
          rw [scope_eq stack] at made
          rcases declaration_cases stack declaration location with
            ⟨other, also_made, run⟩ | ⟨none, fault, run⟩
          · cases made.symm.trans also_made
            rw [show (Deed.declare declaration location).perform session = _ from run]
            exact ⟨_, rfl, List.mem_append_right _ List.mem_cons_self⟩
          · cases made.symm.trans none
  | write output location =>
      cases declared
      cases stack : session.blocks with
      | nil => cases (write_closed output location stack).symm.trans succeeds
      | cons top outer =>
          have blocks := blocks_write output location session
          rw [stack] at blocks
          refine ⟨_, congrArg List.head? blocks, ?_⟩
          exact List.mem_append_right _ List.mem_cons_self
  | _ => cases declared

/-- What becomes, in the rest of the body of a phase with these calls, of an item that waits. -/
inductive Fate (calls : List Call) (item : Item) : Session → List Deed → Prop
  /-- The next call that is hung into the tree carries it, and stands in the section that it
  brings, or else in the one that is open then. -/
  | carried {session : Session} {deed : Deed} {rest : List Deed} {call : Call}
      (hangs : deed.hung? session = some call) (carries : call.Carries item)
      (placed : call.memory = deed.ownSection?.or session.currentSection)
      (listed : (deed.perform session).2.retainsInnermost rest = true → call ∈ calls) :
      Fate calls item session (deed :: rest)
  | waits {session : Session} {deed : Deed} {rest : List Deed} (quiet : deed.hung? session = none)
      (stays : session.blocks.length ≤ (deed.perform session).2.blocks.length)
      (later : Fate calls item (deed.perform session).2 rest) :
      Fate calls item session (deed :: rest)
  /-- The block in which it waits is thrown away, since a block was not closed as it should be. -/
  | lost {session : Session} {deed : Deed} {rest : List Deed} (quiet : deed.hung? session = none)
      (gone : (deed.perform session).2.blocks.length < session.blocks.length)
      (fails : (deed.perform session).1.isOk = false) : Fate calls item session (deed :: rest)
  /-- It is left to the placeholder at the end of the phase. -/
  | left {session : Session} {call : Call} (carries : call.Carries item)
      (placed : call.memory = session.currentSection) (listed : call ∈ calls) :
      Fate calls item session []

/-- What waits goes on waiting: no call is hung into the tree, and no block is thrown away. -/
def KeepsWaiting (session : Session) : List Deed → Prop
  | [] => True
  | deed :: rest =>
      deed.hung? session = none ∧
        session.blocks.length ≤ (deed.perform session).2.blocks.length ∧
        (deed.perform session).2.KeepsWaiting rest

theorem Fate.after {calls : List Call} {waiting rest : List Deed}
    (fate : session.Fate calls item (waiting ++ rest)) (keeps : session.KeepsWaiting waiting) :
    (session.through waiting).Fate calls item rest := by
  induction waiting generalizing session with
  | nil => exact fate
  | cons deed waiting ih =>
      obtain ⟨quiet, stays, later⟩ := keeps
      cases fate with
      | carried hangs => cases quiet.symm.trans hangs
      | waits _ _ fate => exact ih fate later
      | lost _ gone => exact absurd stays (Nat.not_le.mpr gone)

/-- An item stands in a section that is open when the next call is hung into the tree, unless this
call brings another or does not stay in the tree. -/
theorem Fate.stands {calls : List Call} {deed : Deed} {rest : List Deed} {memory : MemorySection}
    (fate : session.Fate calls item (deed :: rest)) (hangs : (deed.hung? session).isSome = true)
    (none_brought : deed.ownSection? = none) (inside : session.currentSection = some memory)
    (retained : (deed.perform session).2.retainsInnermost rest = true) :
    ∃ call ∈ calls, call.Carries item ∧ call.memory = some memory := by
  cases fate with
  | carried _ carries placed listed =>
      rw [none_brought, inside] at placed
      exact ⟨_, listed retained, carries, placed⟩
  | waits quiet => rw [quiet] at hangs; cases hangs
  | lost quiet => rw [quiet] at hangs; cases hangs

/-- The rest of a body, at whose end one block is open that is sealed with these calls. -/
structure EndsIn (session : Session) (deeds : List Deed) (calls : List Call) : Prop where
  late : Deed.AllLate deeds
  begun : session.lifecycle ≠ .created
  sealed : ∃ block, (session.through deeds).blocks = [block] ∧
    calls = Tree.callsOf (block.flushed (session.through deeds).currentSection).children

section Ending

variable {deed : Deed} {rest : List Deed} {calls : List Call}

theorem EndsIn.handling (ends : session.EndsIn (deed :: rest) calls) : deed.Handling session :=
  (ends.late deed List.mem_cons_self session ends.begun).handling

theorem EndsIn.tail (ends : session.EndsIn (deed :: rest) calls) :
    Session.EndsIn (deed.perform session).2 rest calls where
  late := fun other member => ends.late other (List.mem_cons_of_mem _ member)
  begun := deed.begun ends.begun
  sealed := ends.sealed

theorem EndsIn.through {earlier : List Deed} (ends : session.EndsIn (earlier ++ rest) calls) :
    (session.through earlier).EndsIn rest calls := by
  induction earlier generalizing session with
  | nil => exact ends
  | cons deed earlier ih => exact ih ends.tail

/-- What hangs in a block that is retained is among the calls of the phase. -/
theorem EndsIn.retains {deeds : List Deed} {height : Nat} {call : Call}
    (ends : session.EndsIn deeds calls) (hangs : HangsAt height call session.blocks)
    (retained : session.retains height deeds = true) : call ∈ calls := by
  obtain ⟨block, only, rfl⟩ := ends.sealed
  obtain ⟨last, stays⟩ := retains_hangs ends.late ends.begun hangs retained
  rw [only] at stays
  exact OpenBlock.mem_flushed (.inl (stays.innermost stays.le_length.1))

/-- A call that is hung into the tree is among the calls of the phase if its block is retained. -/
theorem EndsIn.hung {call : Call} (ends : session.EndsIn (deed :: rest) calls)
    (hangs : deed.hung? session = some call)
    (retained : (deed.perform session).2.retainsInnermost rest = true) : call ∈ calls := by
  refine ends.tail.retains (ends.handling.hangs hangs ?_) retained
  intro none_open
  rw [retainsInnermost, none_open, List.length_nil, not_retains_zero] at retained
  cases retained

/-- Whatever is done in the rest of the body, an item that waits has one of the fates. -/
theorem EndsIn.fate {deeds : List Deed} (ends : session.EndsIn deeds calls)
    (waits : WaitsIn item session.blocks) : Fate calls item session deeds := by
  induction deeds generalizing session with
  | nil =>
      obtain ⟨block, only, rfl⟩ := ends.sealed
      rw [through_nil] at only
      obtain ⟨top, innermost, among⟩ := waits
      rw [only] at innermost
      cases innermost
      obtain ⟨call, there, carries, placed⟩ :=
        block.exists_placeholder among session.currentSection
      exact .left carries placed (OpenBlock.mem_flushed (.inr there))
  | cons deed rest ih =>
      have handling := ends.handling
      cases hangs : deed.hung? session with
      | some call =>
          exact .carried hangs (handling.carries waits hangs) (deed.memory_of_hung hangs)
            (ends.hung hangs)
      | none =>
          by_cases stays : session.blocks.length ≤ (deed.perform session).2.blocks.length
          · exact .waits hangs stays (ih ends.tail (handling.waits waits hangs stays))
          · refine .lost hangs (Nat.not_le.mp stays) ?_
            exact handling.fails waits hangs (Nat.not_le.mp stays)

end Ending

end Session

end TestProgram
