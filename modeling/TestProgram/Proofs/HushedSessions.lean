/-
# TestProgram.Proofs.HushedSessions -- what texts and comments leave in a session

Texts and comments wait in the innermost block, go over into the next call or the next block,
and what still waits when a block closes becomes a placeholder at its end.  So of two sessions,
one of which has been told the texts and the other not, the second has the same blocks and
calls without outputs, and lacks the placeholders that would have carried nothing else
(`Hushed`, `Session.Alike`).

Every statement keeps two sessions of a running phase in this relation (`Session.Abreast`), and
a text or a comment that only the first is told keeps them in it too (`Session.addText_unseen`).
The block of the phase is open all the time, since no statement closes it.
-/
import TestProgram.Proofs.HushedData
import TestProgram.Proofs.PhaseRuns
import TestProgram.Session.Calls
import TestProgram.Session.Blocks
import TestProgram.Session.Data
import TestProgram.Session.Scopes

namespace TestProgram

set_option autoImplicit false

open Strategy (Agree)
open TestProgram.Computation

/-! ## Trees -/

/-- The call without texts and comments. -/
def Call.hushed (call : Call) : Call :=
  { call with outputs := [] }

/-- A placeholder that carries texts and comments and nothing else. -/
def Call.isBare (call : Call) : Bool :=
  call.name.isEmpty && call.labels.isEmpty && call.arguments.isEmpty && !call.outputs.isEmpty

mutual

/-- The second tree is the first without texts and comments, and without some of the placeholders
that carry nothing else. -/
inductive Hushed : Tree Call → Tree Call → Prop
  | leaf (call : Call) : Hushed (.leaf call) (.leaf call.hushed)
  | block (info : BlockInfo) {children others : List (Tree Call)}
      (below : HushedAll children others) : Hushed (.block info children) (.block info others)

inductive HushedAll : List (Tree Call) → List (Tree Call) → Prop
  | nil : HushedAll [] []
  | keep {child other : Tree Call} {rest others : List (Tree Call)} (here : Hushed child other)
      (later : HushedAll rest others) : HushedAll (child :: rest) (other :: others)
  | drop {call : Call} {rest others : List (Tree Call)} (bare : call.isBare = true)
      (later : HushedAll rest others) : HushedAll (.leaf call :: rest) others

end

theorem HushedAll.of_all {children others : List (Tree Call)}
    (all : List.Forall₂ Hushed children others) : HushedAll children others := by
  induction all with
  | nil => exact .nil
  | cons here _ ih => exact .keep here ih

theorem HushedAll.of_all_bare {children others : List (Tree Call)} {call : Call}
    (all : List.Forall₂ Hushed children others) (bare : call.isBare = true) :
    HushedAll (children ++ [.leaf call]) others := by
  induction all with
  | nil => exact .drop bare .nil
  | cons here _ ih => exact .keep here ih

/-! ## Blocks -/

/-- Two open blocks that differ in texts and comments only. -/
structure OpenBlock.Alike (here there : OpenBlock) : Prop where
  id : here.id = there.id
  kind : here.kind = there.kind
  options : here.options = there.options
  location : here.location = there.location
  labels : here.labels = there.labels
  silent : there.outputs = []
  children : List.Forall₂ Hushed here.children there.children

structure Block.Alike (here there : Block Call) : Prop where
  info : here.info = there.info
  children : HushedAll here.children there.children

theorem Block.Alike.hushed {here there : Block Call} (alike : Block.Alike here there) :
    Hushed here.toTree there.toTree := by
  rw [Block.toTree, Block.toTree, alike.info]
  exact .block _ alike.children

/-- When the blocks close, what waited in the first becomes a placeholder that the second has
too, or one that only carries texts and comments. -/
theorem OpenBlock.Alike.sealed {here there : OpenBlock} (alike : OpenBlock.Alike here there)
    (memory : Option MemorySection) :
    Block.Alike (here.flushed memory).toBlock (there.flushed memory).toBlock := by
  have info : ∀ block : OpenBlock, (block.flushed memory).toBlock.info = block.toBlock.info := by
    intro block
    unfold OpenBlock.flushed
    split <;> rfl
  constructor
  · rw [info, info, OpenBlock.toBlock, OpenBlock.toBlock, alike.id, alike.kind, alike.options,
      alike.location]
  · have same_labels := alike.labels
    have no_texts := alike.silent
    have same_location := alike.location
    unfold OpenBlock.flushed
    cases labels : there.labels with
    | nil =>
        simp only [same_labels, labels, no_texts, List.isEmpty_nil, Bool.true_and, ↓reduceIte]
        split
        · exact .of_all alike.children
        · rename_i texts
          exact .of_all_bare alike.children (by simp [Call.isBare, texts])
    | cons first rest =>
        simp only [same_labels, labels, no_texts, List.isEmpty_cons, Bool.false_and,
          Bool.false_eq_true, ↓reduceIte]
        refine .of_all (List.rel_append alike.children (.cons ?_ .nil))
        rw [same_location]
        exact .leaf _

/-! ## Sessions -/

/-- Two sessions that draw the same and differ in texts and comments only, in data regions of
this depth. -/
structure Session.Alike (depth : Nat) (here there : Session) : Prop where
  settings : here.settings = there.settings
  engine : Engine.Alike here.engine there.engine
  builtin : here.registry = Strategy.builtins
  also_builtin : there.registry = Strategy.builtins
  defaults : here.defaults = there.defaults
  data : DataStore.Alike here.data there.data
  sound : here.data.Sound
  depth_is : here.data.depth = depth
  blocks : List.Forall₂ OpenBlock.Alike here.blocks there.blocks
  attributes : here.attributes = there.attributes
  sections : here.sections = there.sections
  completed : Option.Rel Block.Alike here.completed there.completed
  lifecycle : here.lifecycle = there.lifecycle

/-- Two such sessions in a phase that is running. -/
structure Session.Abreast (depth : Nat) (here there : Session) : Prop extends
    Session.Alike depth here there where
  running : here.lifecycle.isRunning = true
  inside : here.blocks ≠ []

namespace Session

variable {depth : Nat} {α β : Type} {V : α → β → Prop}

/-! ## Computations on sessions -/

theorem remark_inStep (remarked other : Remark) :
    InStep (Abreast depth) Eq (Action.remark remarked) (Action.remark other) :=
  inStep_modify (fun _ _ alike => { alike with engine := alike.engine })

theorem generation_inStep {here : Generation α} {there : Generation β}
    (together : InStep Engine.Alike V here there) :
    InStep (Abreast depth) V (Action.generation here) (Action.generation there) := by
  intro first second alike
  obtain ⟨agree, engine⟩ := together first.engine second.engine alike.engine
  exact ⟨agree, { alike with engine }⟩

theorem data_inStep {here : DataAction α} {there : DataAction β}
    (together : InStep (DataDesk.Alike depth) V here there) :
    InStep (Abreast depth) V (Action.data here) (Action.data there) := by
  intro first second alike
  obtain ⟨agree, desk⟩ := together ⟨first.data, first.engine⟩ ⟨second.data, second.engine⟩
    ⟨alike.data, alike.engine, alike.sound, alike.depth_is⟩
  exact ⟨agree, { alike with
    data := desk.store, engine := desk.engine, sound := desk.sound, depth_is := desk.depth_is }⟩

theorem ofExcept_inStep {here : Except Fault α} {there : Except Fault β}
    (agree : Agree V here there) :
    InStep (Abreast depth) V (Action.ofExcept here) (Action.ofExcept there) :=
  fun _ _ alike => ⟨agree, alike⟩

theorem locating_inStep {here : Action α} {there : Action β} (location : Location)
    (together : InStep (Abreast depth) V here there) :
    InStep (Abreast depth) V (Action.locating location here) (Action.locating location there) :=
  fun first second alike =>
    ⟨Agree.mapError (together first second alike).1 _, (together first second alike).2⟩

theorem Alike.scope {here there : Session} (alike : Alike depth here there) :
    here.scope = there.scope := by
  unfold Session.scope
  have blocks := alike.blocks
  generalize here.blocks = first at blocks
  generalize there.blocks = second at blocks
  cases blocks with
  | nil => rfl
  | cons top _ => exact top.id

theorem Alike.currentSection {here there : Session} (alike : Alike depth here there) :
    here.currentSection = there.currentSection := by
  rw [Session.currentSection, alike.sections]
  rfl

/-! ## Calls, labels and texts -/

/-- In a running phase a block is open. -/
theorem Abreast.innermost {here there : Session} (abreast : Abreast depth here there) :
    ∃ block other outer others, here.blocks = block :: outer ∧ there.blocks = other :: others ∧
      OpenBlock.Alike block other ∧ List.Forall₂ OpenBlock.Alike outer others := by
  have blocks := abreast.blocks
  have inside := abreast.inside
  generalize here.blocks = first at blocks inside
  generalize there.blocks = second at blocks
  cases blocks with
  | nil => exact absurd rfl inside
  | cons top outer => exact ⟨_, _, _, _, rfl, rfl, top, outer⟩

theorem inBlock_inStep (what : String) {change other : OpenBlock → OpenBlock}
    (kept : ∀ here there, OpenBlock.Alike here there →
      OpenBlock.Alike (change here) (other there)) :
    InStep (Abreast depth) Eq (inBlock what change) (inBlock what other) := by
  intro first second abreast
  obtain ⟨block, counterpart, outer, others, here, there, top, rest⟩ := abreast.innermost
  simp only [inBlock, here, there]
  exact ⟨.ok rfl, { abreast with
    blocks := .cons (kept _ _ top) rest, inside := List.cons_ne_nil _ _ }⟩

theorem addLabel_inStep (label : Label) (what : String) :
    InStep (Abreast depth) Eq (addLabel label what) (addLabel label what) :=
  inBlock_inStep what (fun _ _ alike => { alike with labels := by rw [alike.labels] })

/-- A label of the scope at hand. -/
theorem declare_inStep (labelled : BlockId → Label) (what : String) (location : Location) :
    InStep (Abreast depth) Eq
      (Action.locating location (do addLabel (labelled (← get).scope) what))
      (Action.locating location (do addLabel (labelled (← get).scope) what)) := by
  refine locating_inStep location (inStep_get.bind (fun here there abreast => ?_))
  rw [abreast.scope]
  exact addLabel_inStep _ what

theorem declareNumericLabel_inStep (index : Int) (location : Location) :
    InStep (Abreast depth) Eq (declareNumericLabel index location)
      (declareNumericLabel index location) := by
  refine locating_inStep location ((ofExcept_inStep (Agree.refl _)).bind ?_)
  rintro slot _ rfl
  refine inStep_get.bind (fun here there abreast => ?_)
  rw [abreast.scope]
  exact addLabel_inStep _ "label"

theorem append_inStep {call : Call} (silent : call.outputs = []) (what : String) :
    InStep (Abreast depth) Eq (inBlock what (fun block => OpenBlock.append block call))
      (inBlock what (fun block => OpenBlock.append block call)) := by
  refine inBlock_inStep what (fun here there alike => ?_)
  refine { alike with labels := rfl, silent := rfl, children := ?_ }
  refine List.rel_append alike.children (.cons ?_ .nil)
  rw [alike.labels, alike.silent, silent]
  exact .leaf _

theorem addCall_inStep {call : Call} (silent : call.outputs = []) (location : Location) :
    InStep (Abreast depth) Eq (addCall call location) (addCall call location) := by
  intro first second abreast
  have completed : ∀ any : Call, first.completeCall any = second.completeCall any := by
    intro any
    rw [completeCall, completeCall, scopedAttributes, scopedAttributes, abreast.attributes,
      abreast.defaults, abreast.currentSection]
  have still_silent : ∀ place : Location,
      (second.completeCall { call with location := some place }).outputs = [] := fun _ => silent
  simp only [addCall, completed]
  exact locating_inStep _ (append_inStep (still_silent _) "instruction") first second abreast

theorem output_unseen (what : String) (output : Output) (location : Location) :
    InStep (Abreast depth) Eq (Action.locating location (inBlock what
      (fun block => { block with outputs := block.outputs ++ [output] }))) (pure ()) := by
  intro first second abreast
  obtain ⟨block, counterpart, outer, others, here, there, top, rest⟩ := abreast.innermost
  simp only [Action.locating, inBlock, here]
  exact ⟨.ok rfl, { abreast with
    blocks := there ▸ .cons { top with silent := top.silent } rest
    inside := List.cons_ne_nil _ _ }⟩

/-- A text that only one session is told makes no difference. -/
theorem addText_unseen (content : String) (location : Location) :
    InStep (Abreast depth) Eq (addText content location) (pure ()) :=
  output_unseen "text" (.text content) location

theorem addComment_unseen (content : String) (location : Location) :
    InStep (Abreast depth) Eq (addComment content location) (pure ()) :=
  output_unseen "comment" (.comment content) location

theorem bindDefaults_inStep (names : List String) (situation : Situation) :
    InStep (Abreast depth) Eq (bindDefaults names situation) (bindDefaults names situation) := by
  refine InStep.bind (V := Eq) (inStep_forM names (fun _ _ => remark_inStep _ _)) (fun _ _ _ => ?_)
  exact inStep_modify (fun _ _ alike => { alike with defaults := by rw [alike.defaults] })

/-! ## Blocks -/

theorem openBlock_inStep (kind : BlockKind) (options : BlockOptions) (location : Option Location) :
    InStep (Abreast depth) (fun handle other => handle = other ∧ 0 < handle.depth)
      (openBlock kind options location) (openBlock kind options location) := by
  intro first second abreast
  obtain ⟨block, counterpart, outer, others, here, there, top, rest⟩ := abreast.innermost
  have id : block.id.child block.children.length =
      counterpart.id.child counterpart.children.length := by
    rw [top.id, top.children.length_eq]
  have height : (block :: outer).length = (counterpart :: others).length := by
    rw [List.length_cons, List.length_cons, rest.length_eq]
  simp only [openBlock, here, there]
  refine ⟨.ok ⟨?_, Nat.succ_pos _⟩, { abreast with
    blocks := ?_, inside := List.cons_ne_nil _ _ }⟩
  · rw [id, height]
  · refine .cons ?_ (.cons { top with labels := rfl, silent := rfl } rest)
    exact ⟨id, rfl, rfl, rfl, top.labels, top.silent, .nil⟩

theorem Alike.admissible {here there : Session} (alike : Alike depth here there)
    {block other : OpenBlock} (same : OpenBlock.Alike block other) :
    here.admissible block = there.admissible other := by
  rw [Session.admissible, Session.admissible, same.options, same.kind, same.location,
    alike.builtin, alike.also_builtin]

/-- A sealed block is hung into the one around it. -/
theorem attach_abreast {here there : Session} {block other : Block Call}
    (abreast : Abreast depth here there) (same : Block.Alike block other) :
    Abreast depth (here.attach block) (there.attach other) := by
  obtain ⟨parent, counterpart, outer, others, first, second, top, rest⟩ := abreast.innermost
  simp only [attach, first, second]
  exact { abreast with
    blocks := .cons { top with
      children := List.rel_append top.children (.cons same.hushed .nil) } rest
    inside := List.cons_ne_nil _ _ }

/-- A block other than that of the phase closes on both sides or on neither. -/
theorem closeBlock_inStep {handle : BlockHandle} (deep : 0 < handle.depth) :
    InStep (Abreast depth) Whatever (closeBlock handle) (closeBlock handle) := by
  intro first second abreast
  obtain ⟨block, counterpart, outer, others, here, there, top, rest⟩ := abreast.innermost
  have height : (block :: outer).length = (counterpart :: others).length := by
    rw [List.length_cons, List.length_cons, rest.length_eq]
  simp only [closeBlock, here, there, ← top.id, ← height]
  by_cases fits : block.id = handle.id ∧ (block :: outer).length = handle.depth + 1
  · simp only [if_pos fits]
    have inner : outer ≠ [] := by
      rintro rfl
      have bottom : 0 + 1 = handle.depth + 1 := fits.2
      omega
    have below : Abreast depth { first with blocks := outer } { second with blocks := others } :=
      { abreast with blocks := rest, inside := inner }
    rw [admissible_flushed, admissible_flushed, below.admissible top, abreast.currentSection]
    cases Session.admissible { second with blocks := others } counterpart with
    | error fault => exact ⟨.error fault, below⟩
    | ok _ =>
        have remarked := fun remark other =>
          (remark_inStep remark other _ _ below).2
        exact ⟨.ok trivial, attach_abreast (remarked _ _) (top.sealed _)⟩
  · simp only [if_neg fits]
    exact ⟨.error _, abreast⟩

/-- The blocks above a depth can be thrown away, but that of the phase stays. -/
theorem discardAbove_abreast {here there : Session} {kept : Nat} (deep : 0 < kept)
    (abreast : Abreast depth here there) :
    Abreast depth (here.discardAbove kept) (there.discardAbove kept) := by
  have height := abreast.blocks.length_eq
  have some_block := List.length_pos_iff.mpr abreast.inside
  refine { abreast with blocks := ?_, inside := ?_ }
  · rw [discardAbove, discardAbove, ← height]
    exact List.forall₂_drop _ abreast.blocks
  · rw [discardAbove, ← List.length_pos_iff, List.length_drop]
    omega

theorem leaveBlock_inStep {handle : BlockHandle} (deep : 0 < handle.depth) (location : Location)
    {here there : Except Fault Unit} (ended : Agree Eq here there) :
    InStep (Abreast depth) Eq (leaveBlock handle location here)
      (leaveBlock handle location there) := by
  intro first second abreast
  cases ended with
  | error fault => exact ⟨.error _, discardAbove_abreast deep abreast⟩
  | ok same =>
      obtain ⟨agree, after⟩ := closeBlock_inStep deep first second abreast
      exact ⟨Agree.unit agree, discardAbove_abreast deep after⟩

/-! ## Scopes -/

theorem enterAttributes_inStep (attributes : Attributes) :
    InStep (Abreast depth) Eq (enterAttributes attributes) (enterAttributes attributes) := by
  intro first second abreast
  have same := abreast.attributes
  exact ⟨.ok (by rw [same]), { abreast with attributes := congrArg (attributes :: ·) same }⟩

theorem leaveAttributes_inStep (kept : Nat) :
    InStep (Abreast depth) Eq (leaveAttributes kept) (leaveAttributes kept) := by
  intro first second abreast
  have same := abreast.attributes
  exact ⟨.ok rfl, { abreast with
    attributes := congrArg (fun held => held.drop (held.length - kept)) same }⟩

theorem enterSection_inStep (memory : MemorySection) (location : Location) :
    InStep (Abreast depth) Eq (enterSection memory location) (enterSection memory location) := by
  refine locating_inStep location ?_
  split
  · exact inStep_throw _
  · refine inStep_get.bind (fun here there abreast => ?_)
    rw [abreast.currentSection, abreast.sections]
    split
    · exact inStep_throw _
    · refine (remark_inStep _ _).bind (fun _ _ _ => ?_)
      refine InStep.bind (V := Eq) (inStep_modify (fun _ _ alike => ?_)) (fun _ _ _ => ?_)
      · exact { alike with sections := by rw [alike.sections] }
      · exact inStep_pure rfl

theorem leaveSection_inStep (kept : Nat) :
    InStep (Abreast depth) Eq (leaveSection kept) (leaveSection kept) := by
  intro first second abreast
  have same := abreast.sections
  exact ⟨.ok rfl, { abreast with
    sections := congrArg (fun held => held.drop (held.length - kept)) same }⟩

end Session
end TestProgram
