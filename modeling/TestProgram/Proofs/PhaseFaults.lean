/-
# TestProgram.Proofs.PhaseFaults -- why a phase fails whose body has succeeded

Once a body has ended well and left no block open but that of the phase, little can go wrong any
more.  The block of the phase is a sequence without strategies, whatever the body has done inside
it (`Session.after_bottom`), so it closes; its tree can be expanded, as every sealed tree can;
and finalizing its streams draws random arguments.  A distribution that has been built always
yields a value (`Distribution.Built.sample_ok`), so only a range of integers from a number to a
smaller one is left to fail at.

`sealed_trees_always_expand` puts the three together: sealed trees expand, built-in strategies
never go wrong on their way, and a phase fails at its end for an empty range and for nothing
else.
-/
import TestProgram.Proofs.CheckedStrategies
import TestProgram.Proofs.SealedTrees

namespace TestProgram

set_option autoImplicit false

/-! ## Built distributions -/

namespace Distribution

/-- The distribution was built from ranges, and so was every distribution nested in them. -/
inductive Built : Distribution → Prop
  | of {ranges : List ValueRange} {distribution : Distribution}
      (nested : ∀ range ∈ ranges, ∀ inner, range.value = .nested inner → Built inner)
      (built : build ranges = .ok distribution) : Built distribution

/-- The alternatives have a chance to be chosen, and nested ones are those of the range. -/
structure OfRange (range : ValueRange) (alternatives : List Alternative) : Prop where
  some : alternatives ≠ []
  positive : ∀ alternative ∈ alternatives, 0 < alternative.weight
  nested : ∀ inner weight, .nested inner weight ∈ alternatives → range.value = .nested inner

theorem expandRange_ok {implied : Nat} {range : ValueRange} {alternatives : List Alternative}
    (expanded : expandRange implied range = .ok alternatives) : OfRange range alternatives := by
  unfold expandRange at expanded
  generalize range.bias.getD implied = weight at expanded
  by_cases zero : weight = 0
  · simp only [if_pos zero] at expanded
    cases expanded
  · have positive : 0 < weight := Nat.pos_of_ne_zero zero
    simp only [if_neg zero] at expanded
    cases held : range.value with
    | scalar value =>
        rw [held] at expanded
        cases expanded
        exact ⟨by simp, by simpa [Alternative.weight] using positive, by simp⟩
    | collection values =>
        rw [held, rangeAlternatives] at expanded
        split at expanded
        · cases expanded
        · rename_i filled
          cases expanded
          refine ⟨by simpa using filled, ?_, by simp⟩
          intro alternative member
          obtain ⟨value, _, rfl⟩ := List.mem_map.mp member
          exact positive
    | nested distribution =>
        rw [held] at expanded
        cases expanded
        refine ⟨by simp, by simpa [Alternative.weight] using positive, ?_⟩
        intro inner bias member
        cases List.mem_singleton.mp member
        exact held

theorem totalOf_pos {alternatives : List Alternative} {alternative : Alternative}
    (member : alternative ∈ alternatives) (positive : 0 < alternative.weight) :
    0 < totalOf alternatives := by
  induction alternatives with
  | nil => cases member
  | cons first rest ih =>
      show 0 < first.weight + totalOf rest
      rcases List.mem_cons.mp member with rfl | later
      · omega
      · have := ih later
        omega

/-- A distribution is built of the alternatives of each of its ranges, one after another. -/
theorem build_ok_iff {ranges : List ValueRange} {distribution : Distribution} :
    build ranges = .ok distribution ↔ ranges ≠ [] ∧ ∃ parts : List (List Alternative),
      List.Forall₂ (fun range part => expandRange (impliedWeight ranges) range = .ok part)
        ranges parts ∧ .mk parts.flatten = distribution := by
  unfold build
  by_cases empty : ranges = []
  · simp [empty]
  · rw [if_neg (by simpa using empty), Except.bind_ok_iff]
    simp [empty, Except.mapM_ok_iff]

/-- A distribution that could be built has a total weight, and what is nested in it stood in one
of its ranges. -/
theorem build_ok {ranges : List ValueRange} {alternatives : List Alternative}
    (built : build ranges = .ok (.mk alternatives)) :
    0 < totalOf alternatives ∧ ∀ inner weight, .nested inner weight ∈ alternatives →
      ∃ range ∈ ranges, range.value = .nested inner := by
  obtain ⟨filled, parts, expanded, made⟩ := build_ok_iff.mp built
  cases made
  have parted := expanded.imp (fun _ _ => expandRange_ok)
  constructor
  · obtain ⟨first, others, rfl⟩ := List.exists_cons_of_ne_nil filled
    cases parted with
    | cons here there =>
        obtain ⟨alternative, member⟩ := List.exists_mem_of_ne_nil _ here.some
        exact totalOf_pos (List.mem_flatten.mpr ⟨_, List.mem_cons_self, member⟩)
          (here.positive alternative member)
  · intro inner weight member
    obtain ⟨part, listed, inside⟩ := List.mem_flatten.mp member
    obtain ⟨range, ranged, of_range⟩ := Paired.exists_partner parted part listed
    exact ⟨range, ranged, of_range.nested inner weight inside⟩

theorem choose_mem {β : Type} {entries : List (Nat × β)} (filled : entries ≠ []) (c : Nat) :
    ∃ entry ∈ entries, choose c entries = some entry.2 := by
  induction entries generalizing c with
  | nil => exact absurd rfl filled
  | cons first rest ih =>
      obtain ⟨weight, held⟩ := first
      cases rest with
      | nil => exact ⟨(weight, held), List.mem_cons_self, rfl⟩
      | cons second others =>
          by_cases here : c < weight
          · exact ⟨(weight, held), List.mem_cons_self, by rw [choose, if_pos here]; simp⟩
          · obtain ⟨entry, member, chosen⟩ := ih (List.cons_ne_nil _ _) (c - weight)
            refine ⟨entry, List.mem_cons_of_mem _ member, ?_⟩
            rw [choose, if_neg here, chosen]
            simp

theorem mem_samplers : ∀ {alternatives : List Alternative} {entry : Nat × Sampler Scalar},
    entry ∈ samplers alternatives → (∃ scalar, entry.2 = pure scalar) ∨
      ∃ inner weight, .nested inner weight ∈ alternatives ∧ entry.2 = sample inner
  | [], _, member => by cases member
  | .value scalar weight :: rest, entry, member => by
      rcases List.mem_cons.mp member with rfl | later
      · exact .inl ⟨scalar, rfl⟩
      · rcases mem_samplers later with constant | ⟨inner, other, listed, same⟩
        · exact .inl constant
        · exact .inr ⟨inner, other, List.mem_cons_of_mem _ listed, same⟩
  | .nested distribution weight :: rest, entry, member => by
      rcases List.mem_cons.mp member with rfl | later
      · exact .inr ⟨distribution, weight, List.mem_cons_self, rfl⟩
      · rcases mem_samplers later with constant | ⟨inner, other, listed, same⟩
        · exact .inl constant
        · exact .inr ⟨inner, other, List.mem_cons_of_mem _ listed, same⟩

theorem draw_bind {β γ : Type} (draw : Draw β) (next : β → Sampler γ) (random : Random) :
    ((draw : Sampler β) >>= next) random = next (draw random).1 (draw random).2 :=
  rfl

/-- Sampling a built distribution yields a value, from any random source. -/
theorem Built.sample_ok {distribution : Distribution} (built : Built distribution) :
    ∀ random, ∃ scalar after, distribution.sample random = (.ok scalar, after) := by
  induction built with
  | @of ranges distribution nested built ih =>
      obtain ⟨alternatives⟩ := distribution
      obtain ⟨positive, from_ranges⟩ := build_ok built
      intro random
      have filled : samplers alternatives ≠ [] := by
        rintro none_there
        cases alternatives with
        | nil => exact absurd positive (Nat.lt_irrefl 0)
        | cons first rest => cases first <;> cases none_there
      obtain ⟨entry, member, chosen⟩ := choose_mem filled
        (Draw.weighted (totalOf alternatives) random).1
      have run : sample (.mk alternatives) random =
          entry.2 (Draw.weighted (totalOf alternatives) random).2 := by
        rw [sample, if_neg (Nat.pos_iff_ne_zero.mp positive), draw_bind, chosen,
          Option.getD_some]
      rw [run]
      rcases mem_samplers member with ⟨scalar, same⟩ | ⟨inner, weight, listed, same⟩
      · rw [same]
        exact ⟨scalar, _, rfl⟩
      · rw [same]
        obtain ⟨range, ranged, holds⟩ := from_ranges inner weight listed
        exact ih range ranged inner holds _

end Distribution

/-! ## Finalizing -/

/-- One of the arguments is a range with nothing in it, and this is the fault of drawing from
it. -/
def Call.MeetsEmptyRange (call : Call) (fault : Fault) : Prop :=
  ∃ lowest highest, .range lowest highest ∈ call.arguments ∧ highest < lowest ∧
    fault = (Fault.of (.emptyRandomRange lowest highest)).locate? call.location

/-- The distributions among the arguments have been built. -/
def Call.DrawsBuilt (call : Call) : Prop :=
  ∀ distribution, .random distribution ∈ call.arguments → distribution.Built

theorem Argument.settle_error {argument : Argument} {random after : Random} {fault : Fault}
    (built : ∀ distribution, argument = .random distribution → distribution.Built)
    (failed : argument.settle random = (.error fault, after)) :
    ∃ lowest highest, argument = .range lowest highest ∧ highest < lowest ∧
      fault = Fault.of (.emptyRandomRange lowest highest) := by
  cases argument with
  | value scalar => cases failed
  | label reference => cases failed
  | address reference => cases failed
  | random distribution =>
      obtain ⟨scalar, last, sampled⟩ := (built distribution rfl).sample_ok random
      rcases Computation.bind_error_iff.mp failed with here | ⟨_, _, _, later⟩
      · rw [sampled] at here
        cases here
      · cases later
  | range lowest highest =>
      rcases Computation.bind_error_iff.mp failed with here | ⟨_, _, _, later⟩
      · by_cases reversed : highest < lowest
        · rw [Draw.between, if_pos reversed] at here
          cases here
          exact ⟨lowest, highest, rfl, reversed, rfl⟩
        · rw [Draw.between, if_neg reversed] at here
          cases here
      · cases later

theorem Call.settle_error {call : Call} {engine after : Engine} {fault : Fault}
    (built : call.DrawsBuilt) (failed : call.settle engine = (.error fault, after)) :
    call.MeetsEmptyRange fault := by
  rcases drawn : call.arguments.mapM Argument.settle engine.random with ⟨outcome, random⟩
  simp only [Call.settle, Generation.locating, Generation.sample, drawn] at failed
  cases outcome with
  | ok operands => cases failed
  | error cause =>
      cases failed
      obtain ⟨argument, member, before, here⟩ := Computation.mapM_error drawn
      obtain ⟨lowest, highest, rfl, reversed, rfl⟩ := Argument.settle_error
        (fun distribution same => built distribution (same ▸ member)) here
      exact ⟨lowest, highest, member, reversed, rfl⟩

theorem finalizeCalls_error {strong : List String} {calls : List Call} {fault : Fault}
    (built : ∀ call ∈ calls, call.DrawsBuilt) :
    ∀ {ledger : Ledger} {engine after : Engine},
      finalizeCalls strong ledger calls engine = (.error fault, after) →
      ∃ call ∈ calls, call.MeetsEmptyRange fault := by
  induction calls with
  | nil =>
      intro ledger engine after failed
      cases failed
  | cons call rest ih =>
      intro ledger engine after failed
      rcases finalizeCalls_cons_error failed with settling | ⟨_, _, _, _, _, further⟩
      · exact ⟨call, List.mem_cons_self,
          Call.settle_error (built call List.mem_cons_self) settling⟩
      · obtain ⟨other, member, meets⟩ :=
          ih (fun other member => built other (List.mem_cons_of_mem call member)) further
        exact ⟨other, List.mem_cons_of_mem call member, meets⟩

/-- Some emission of the streams meets an empty range. -/
def MeetEmptyRange (streams : List (Stream Call)) (fault : Fault) : Prop :=
  ∃ stream ∈ streams, ∃ call ∈ stream.emissions, call.MeetsEmptyRange fault

/-- The distributions that the streams draw from have been built.  A template can come by a
distribution in no other way. -/
def DrawBuilt (streams : List (Stream Call)) : Prop :=
  ∀ stream ∈ streams, ∀ call ∈ stream.emissions, call.DrawsBuilt

theorem Session.generateSequences_error {block : Block Call} {session after : Session}
    {streams : List (Stream Call)} {last : Engine} {fault : Fault}
    (failed : generateSequences block session = (.error fault, after))
    (expands : Expansion.expand session.registry block.toTree session.engine =
      (.ok streams, last))
    (built : DrawBuilt streams) : MeetEmptyRange streams fault := by
  rcases Computation.bind_error_iff.mp failed with none_here | ⟨_, _, here, failed⟩
  · cases none_here
  · cases here
    rcases body : (do
        let streams ← Expansion.expand session.registry block.toTree
        streams.mapM finalize) session.engine with ⟨outcome, engine⟩
    simp only [Action.generation, body] at failed
    cases failed
    rcases Computation.bind_error_iff.mp body with expanding | ⟨_, _, expanded, finalizing⟩
    · rw [expands] at expanding
      cases expanding
    · rw [expands] at expanded
      cases expanded
      obtain ⟨stream, member, before, here⟩ := Computation.mapM_error finalizing
      obtain ⟨call, emitted, meets⟩ := finalizeCalls_error (built stream member) here
      exact ⟨stream, member, call, emitted, meets⟩

/-! ## The block of a phase -/

/-- What stays of an open block whatever happens inside. -/
def OpenBlock.frame (block : OpenBlock) : BlockId × BlockKind × BlockOptions :=
  (block.id, block.kind, block.options)

/-- The frame of the outermost block. -/
def bottom? (blocks : List OpenBlock) : Option (BlockId × BlockKind × BlockOptions) :=
  (blocks.map OpenBlock.frame).getLast?

theorem bottom?_cons {top : OpenBlock} {outer : List OpenBlock} (around : outer ≠ []) :
    bottom? (top :: outer) = bottom? outer := by
  obtain ⟨parent, rest, rfl⟩ := List.exists_cons_of_ne_nil around
  exact List.getLast?_cons_cons

/-- Changing the innermost block inside its frame leaves the outermost frame. -/
theorem bottom?_head {top changed : OpenBlock} (outer : List OpenBlock)
    (same : changed.frame = top.frame) : bottom? (changed :: outer) = bottom? (top :: outer) := by
  rw [bottom?, bottom?, List.map_cons, List.map_cons, same]

theorem bottom?_suffix {kept blocks : List OpenBlock} (suffix : kept <:+ blocks)
    (some_kept : kept ≠ []) : bottom? kept = bottom? blocks := by
  obtain ⟨gone, rfl⟩ := suffix
  rw [bottom?, bottom?, List.map_append, List.getLast?_append_of_ne_nil]
  exact fun none_kept => some_kept (List.map_eq_nil_iff.mp none_kept)

theorem Operation.Step.bottom {session : Session} {top : OpenBlock} {outer blocks : List OpenBlock}
    {operation : Operation} {outcome : Except Fault Unit}
    (step : operation.Step session top outer outcome blocks) :
    bottom? blocks = bottom? (top :: outer) := by
  cases step with
  | opened kind options location =>
      rw [bottom?_cons (List.cons_ne_nil _ _)]
      exact bottom?_head outer rfl
  | sealed closes inside =>
      subst inside
      rw [bottom?_cons (List.cons_ne_nil _ _)]
      exact bottom?_head _ rfl
  | refused fault closes suffix inside => exact bottom?_suffix suffix inside
  | appended call location => exact bottom?_head outer rfl
  | declared declaration location made => exact bottom?_head outer rfl
  | undeclared declaration location fault none => rfl
  | written output location => exact bottom?_head outer rfl
  | aside change apart => rfl

/-- Whatever a body does inside a phase, the outermost block stays that of the phase. -/
theorem Session.after_bottom {session : Session} (inside : session.blocks ≠ [])
    (operations : List Operation) :
    bottom? (session.after operations).blocks = bottom? session.blocks := by
  induction operations generalizing session with
  | nil => rfl
  | cons operation rest ih =>
      obtain ⟨top, outer, stack⟩ := exists_innermost inside
      have step := operation.step stack
      rw [after_cons, ih step.ne_nil, step.bottom, stack]

/-! ## The end of a phase -/

namespace Session

variable {session after : Session} {kind : PhaseKind} {block : OpenBlock}

/-- A sequence block without strategies can be closed. -/
theorem admissible_plain (plain : block.frame = (BlockId.root, .sequence, {})) :
    session.admissible block = .ok () := by
  have kind : block.kind = .sequence := congrArg (fun frame => frame.2.1) plain
  have options : block.options = {} := congrArg (fun frame => frame.2.2) plain
  rw [admissible, kind, options]
  rfl

theorem generateSequences_blocks (sealed : Block Call) (session : Session) :
    (generateSequences sealed session).2.blocks = session.blocks := by
  rw [generateSequences, Computation.bind_run]
  rfl

/-- No block is left open when a phase has ended, whether it has failed or not. -/
theorem endPhase_blocks (only : session.blocks = [block])
    (plain : block.frame = (BlockId.root, .sequence, {})) :
    (endPhase kind (.ok ()) session).2.blocks = [] := by
  have emptied := generateSequences_blocks (block.flushed session.currentSection).toBlock
    (session.withoutPhaseBlock (block.flushed session.currentSection))
  rw [endPhase_run only (congrArg Prod.fst plain) (admissible_plain plain)]
  rcases run : generateSequences _ _ with ⟨_ | sequences, last⟩
  · rw [run] at emptied
    exact emptied
  · rw [run] at emptied
    exact emptied

/-- What becomes of a phase whose body has ended so: its block closes, its tree expands to these
streams, and if it fails after that, it is for an empty range in one of them. -/
structure FailsByRangesOnly (ended : Session) (kind : PhaseKind)
    (streams : List (Stream Call)) : Prop where
  expands : ∃ sealed closed last,
    closeBlock ⟨BlockId.root, 0⟩ ended = (.ok sealed, closed) ∧
      Expansion.expand closed.registry sealed.toTree closed.engine = (.ok streams, last)
  fails : DrawBuilt streams → ∀ fault after,
    endPhase kind (.ok ()) ended = (.error fault, after) → MeetEmptyRange streams fault
  /-- The next phase begins as this one did. -/
  rests : ended.Reaches (endPhase kind (.ok ()) ended).2 ∧
    (endPhase kind (.ok ()) ended).2.blocks = []

/-- The phase that begins in a session with no open block has only its own block open at the
end of its body, with the frame it was opened with. -/
theorem phase_block {begun : Session} {operations : List Operation} (closed : session.blocks = [])
    (begins : beginPhase kind session = (.ok (), begun))
    (alone : (begun.after operations).blocks.length = 1) :
    ∃ block, (begun.after operations).blocks = [block] ∧
      block.frame = (BlockId.root, .sequence, {}) := by
  obtain ⟨lifecycle, _, _, same⟩ := beginPhase_ok closed begins
  have stack : begun.blocks = [{ id := BlockId.root, kind := .sequence }] := by rw [same]
  have inside : begun.blocks ≠ [] := by
    rw [stack]
    exact List.cons_ne_nil _ _
  obtain ⟨block, only⟩ := List.length_eq_one_iff.mp alone
  have framed := after_bottom inside operations
  rw [only, stack] at framed
  exact ⟨block, only, Option.some.inj framed⟩

theorem failsByRangesOnly {settings : Settings} {begun : Session} {operations : List Operation}
    (reached : (Session.new settings).Reaches session) (closed : session.blocks = [])
    (begins : beginPhase kind session = (.ok (), begun))
    (registers : ∀ operation ∈ operations, operation.Registers)
    (alone : (begun.after operations).blocks.length = 1) :
    ∃ streams, (begun.after operations).FailsByRangesOnly kind streams := by
  obtain ⟨block, only, plain⟩ := phase_block closed begins alone
  have ended_reached : (Session.new settings).Reaches (begun.after operations) :=
    (reached.trans ((moves_beginPhase kind).reaches begins)).trans (reaches_after registers begun)
  have root : block.id = BlockId.root := congrArg Prod.fst plain
  have closes := closeBlock_root only root (admissible_plain plain)
  obtain ⟨streams, last, expands⟩ := sealed_expands ended_reached closes .refl
    ((begun.after operations).withoutPhaseBlock
      (block.flushed (begun.after operations).currentSection)).engine
  refine ⟨streams, ⟨_, _, last, closes, expands⟩, fun built fault after failed => ?_,
    moves_endPhase kind (.ok ()) _, endPhase_blocks only plain⟩
  rw [endPhase_run only (congrArg Prod.fst plain) (admissible_plain plain)] at failed
  rcases generating : generateSequences _ _ with ⟨cause | sequences, final⟩
  · rw [generating] at failed
    cases failed
    exact generateSequences_error generating expands built
  · rw [generating] at failed
    cases failed

end Session

/-! ## Everything put together -/

/-- What sessions with these settings can rely on. -/
structure AlwaysExpands (settings : Settings) : Prop where
  /-- A block that was sealed at any time can be expanded at any later time. -/
  sealed : ∀ {sealing sealed later : Session} {handle : BlockHandle} {block : Block Call},
    (Session.new settings).Reaches sealing →
    Session.closeBlock handle sealing = (.ok block, sealed) → sealed.Reaches later →
    ∀ engine, ∃ streams last,
      Expansion.expand later.registry block.toTree engine = (.ok streams, last)
  /-- Written out over indexes and counts, the built-in strategies pass all checks. -/
  builtins : Checked.Safe (Strategy.builtins : Registry Call) Checked.builtins
  /-- A phase whose body has ended well, with one block open, fails for empty ranges only. -/
  phases : ∀ {session begun : Session} {kind : PhaseKind} {operations : List Operation},
    (Session.new settings).Reaches session → session.blocks = [] →
    Session.beginPhase kind session = (.ok (), begun) →
    (∀ operation ∈ operations, operation.Registers) →
    (begun.after operations).blocks.length = 1 →
    ∃ streams, (begun.after operations).FailsByRangesOnly kind streams

/-- **Sealed trees always expand.**  The registry of a session begins with the built-in strategies
and changes by registrations only.  Then every block that closes can be expanded, right away and
at any later time, from any random source; no built-in strategy ever draws from an empty range,
divides by zero, goes below zero or reaches outside a list; and a phase whose body has ended well
with one block open can fail only while it is finalized, for a range of integers from a number
to a smaller one. -/
theorem sealed_trees_always_expand (settings : Settings) : AlwaysExpands settings where
  sealed := Session.sealed_expands
  builtins := Checked.builtins_safe
  phases := Session.failsByRangesOnly

/-- A session that knows one more compositor, which keeps the first of the streams. -/
def knowingFirst : Session :=
  { Session.new {} with
    registry := (Session.new {}).registry.register
      (.compositor "first" (fun streams => pure (streams.headD Stream.empty))) }

/-- The same session at the beginning of its first phase. -/
def phaseKnowingFirst : Session :=
  { knowingFirst with
    lifecycle := .preRunning
    blocks := [{ id := BlockId.root, kind := .sequence }] }

/-- A free block with a block inside, in which a call draws from `5` to `3`. -/
def drawingBackwards : List Operation :=
  [.openBlock .free { strategies := { compositor := some "first" } } none,
   .openBlock .iterate {} none,
   .addCall { name := "a", arguments := [.range 5 3] } (.caller "first" 1 1),
   .closeBlock ⟨(BlockId.root.child 0).child 0, 2⟩ Nat.two_pos,
   .closeBlock ⟨BlockId.root.child 0, 1⟩ Nat.one_pos]

/-- With a compositor of its own a tree can be expanded, and the phase fails for the range in
it. -/
theorem sealed_trees_always_expand_backwards :
    (∃ block sealed, Session.closeBlock ⟨BlockId.root.child 0, 1⟩
        (phaseKnowingFirst.after (drawingBackwards.take 4)) = (.ok block, sealed) ∧
      ∀ engine, ∃ streams last,
        Expansion.expand sealed.registry block.toTree engine = (.ok streams, last)) ∧
    ∃ streams fault after, Session.endPhase .pre (.ok ())
        (phaseKnowingFirst.after drawingBackwards) = (.error fault, after) ∧
      MeetEmptyRange streams fault := by
  have always := sealed_trees_always_expand {}
  have reached : (Session.new {}).Reaches knowingFirst :=
    .single (.aside [.compositor "first" _] rfl (List.suffix_refl _))
  have begins : Session.beginPhase .pre knowingFirst = (.ok (), phaseKnowingFirst) :=
    Session.beginPhase_of_enter rfl rfl rfl
  have registers : ∀ operation ∈ drawingBackwards, operation.Registers := by
    intro operation member
    simp only [drawingBackwards, List.mem_cons, List.not_mem_nil, or_false] at member
    rcases member with rfl | rfl | rfl | rfl | rfl <;> trivial
  constructor
  · have inside : knowingFirst.Reaches (phaseKnowingFirst.after (drawingBackwards.take 4)) :=
      ((Session.moves_beginPhase .pre).reaches begins).trans (Session.reaches_after
        (fun operation member => registers operation (List.mem_of_mem_take member)) _)
    obtain ⟨block, sealed, closes⟩ : ∃ block sealed,
        Session.closeBlock ⟨BlockId.root.child 0, 1⟩
          (phaseKnowingFirst.after (drawingBackwards.take 4)) = (.ok block, sealed) := ⟨_, _, rfl⟩
    exact ⟨block, sealed, closes, always.sealed (reached.trans inside) closes .refl⟩
  · obtain ⟨streams, ends⟩ := always.phases reached rfl begins registers rfl
    obtain ⟨fault, after, failed⟩ : ∃ fault after, Session.endPhase .pre (.ok ())
        (phaseKnowingFirst.after drawingBackwards) = (.error fault, after) := ⟨_, _, rfl⟩
    have only_range : (streams.flatMap Stream.emissions).flatMap Call.arguments =
        [.range 5 3] := by
      obtain ⟨_, _, _, closes, expanded⟩ := ends.expands
      cases closes
      cases expanded
      rfl
    have built : DrawBuilt streams := by
      intro stream member call emitted distribution drawn
      have listed : .random distribution ∈
          (streams.flatMap Stream.emissions).flatMap Call.arguments :=
        List.mem_flatMap.mpr ⟨call, List.mem_flatMap.mpr ⟨stream, member, emitted⟩, drawn⟩
      rw [only_range] at listed
      cases List.mem_singleton.mp listed
    exact ⟨streams, fault, after, failed, ends.fails built fault after failed⟩

end TestProgram
