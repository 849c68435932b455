/-
# TestProgram.Proofs.DrawnOperands -- operands lie inside what the arguments declared

Finalizing walks along the arguments of all calls and settles each from the source that the one
before left behind (`InTurn`): an argument that draws takes words and moves the source on, every
other leaves it where it is.  So the words of two arguments never overlap, also when the arguments
are those of two copies of one call.

What a draw gives lies in its range or among the values of its distribution (`settle_drawn`).  The
only argument that cannot be settled is a range whose ends are in the wrong order, so a walk that
fails has stopped at the first of these (`walk_stops`), and both are carried from the arguments of
one call to the calls of a stream (`finalizeCalls_drawn`, `finalizeCalls_stops`).
-/
import TestProgram.Proofs.Draw
import TestProgram.Proofs.Finalization
import TestProgram.Proofs.SampledValues

namespace TestProgram

set_option autoImplicit false

/-! ## Taking words -/

/-- The source after so many words more have been taken. -/
def Random.skip (random : Random) (count : Nat) : Random :=
  { random with position := random.position + count }

@[simp] theorem Random.skip_skip (random : Random) (first second : Nat) :
    (random.skip first).skip second = random.skip (first + second) := by
  simp only [Random.skip, Nat.add_assoc]

namespace Draw

variable {α β : Type}

/-- The draw takes at least so many words and changes nothing else about the source. -/
def Takes (least : Nat) (draw : Draw α) : Prop :=
  ∀ random, ∃ count, least ≤ count ∧ (draw random).2 = random.skip count

theorem takes_pure (value : α) : Takes 0 (pure value : Draw α) :=
  fun _ => ⟨0, Nat.le_refl 0, rfl⟩

theorem takes_word : Takes 1 word :=
  fun _ => ⟨1, Nat.le_refl 1, rfl⟩

theorem takes_bind {least later : Nat} {first : Draw α} {next : α → Draw β}
    (here : Takes least first) (there : ∀ value, Takes later (next value)) :
    Takes (least + later) (first >>= next) := by
  intro random
  obtain ⟨count, enough, taken⟩ := here random
  obtain ⟨more, enough_later, taken_later⟩ := there (first random).1 (first random).2
  refine ⟨count + more, Nat.add_le_add enough enough_later, ?_⟩
  rw [← Random.skip_skip, ← taken]
  exact taken_later

theorem Takes.mono {least fewer : Nat} {draw : Draw α} (takes : Takes least draw)
    (fewer_le : fewer ≤ least) : Takes fewer draw := by
  intro random
  obtain ⟨count, enough, taken⟩ := takes random
  exact ⟨count, Nat.le_trans fewer_le enough, taken⟩

theorem takes_long : Takes 2 long :=
  takes_bind takes_word (fun _ => takes_bind takes_word (fun _ => takes_pure _))

/-- Scaling takes a word, and another one for each that it rejects. -/
theorem takes_scaled {least : Nat} {next : Draw Nat} (takes : Takes least next)
    (size zone n tries : Nat) : Takes least (scaled next size zone n tries) := by
  induction tries with
  | zero => exact takes_bind takes (fun _ => takes_pure _)
  | succ tries ih =>
      refine takes_bind takes (fun v => (?_ : Takes 0 _))
      split
      · exact takes_pure _
      · exact ih.mono (Nat.zero_le least)

theorem takes_weighted (total : Nat) : Takes 2 (weighted total) :=
  takes_scaled takes_long _ _ _ _

theorem takes_integer (lowest highest : Int) : Takes 2 (integer lowest highest) := by
  dsimp only [integer]
  split
  · exact takes_bind (takes_scaled takes_long _ _ _ _) (fun _ => takes_pure _)
  · exact takes_bind takes_long (fun _ => takes_pure _)

/-- An integer from a range lies in it, however wide the range is. -/
theorem integer_mem {lowest highest : Int} (ordered : lowest ≤ highest) :
    Always (integer lowest highest) (fun number => lowest ≤ number ∧ number ≤ highest) := by
  dsimp only [integer]
  split
  · refine always_bind (uniform_le _) (fun offset small => always_pure ?_)
    omega
  · rename_i wide
    refine always_bind long_lt (fun v _ => always_pure ?_)
    have above := Int.emod_nonneg ((v : Int) - lowest) (b := (MachineWord.long : Int)) (by decide)
    have below := Int.emod_lt_of_pos ((v : Int) - lowest) (b := (MachineWord.long : Int))
      (by decide)
    omega

end Draw

/-- Sampling a built distribution takes words, at least two at each level that is entered. -/
theorem Distribution.Built.sample_takes {distribution : Distribution}
    (built : distribution.Built) : ∀ random, ∃ count, 2 ≤ count ∧
      (distribution.sample random).2 = random.skip count := by
  induction built using Built.induct with
  | step alternatives built filled _ nested =>
      intro random
      obtain ⟨index, alternative, _, there, goes_on⟩ := sample_run filled built.total_pos random
      obtain ⟨count, enough, taken⟩ := Draw.takes_weighted (totalOf alternatives) random
      rw [goes_on, taken]
      cases alternative with
      | value scalar weight => exact ⟨count, enough, rfl⟩
      | nested inner weight =>
          obtain ⟨_, takes⟩ := nested inner weight (List.mem_of_getElem? there)
          obtain ⟨more, _, taken_inside⟩ := takes (random.skip count)
          rw [sample_eq, Random.skip_skip] at taken_inside
          exact ⟨count + more, Nat.le_add_right_of_le enough, taken_inside⟩

/-! ## One argument -/

namespace Argument

/-- The operands that lie inside what an argument declares. -/
inductive Allows : Argument → Operand → Prop
  | value (scalar : Scalar) : Allows (.value scalar) (.value scalar)
  | label (reference : LabelReference) : Allows (.label reference) (.label reference none)
  | address (reference : AddressReference) : Allows (.address reference) (.address reference)
  | range {lowest highest number : Int} (above : lowest ≤ number) (below : number ≤ highest) :
      Allows (.range lowest highest) (.value (.integer number))
  | random {distribution : Distribution} {scalar : Scalar}
      (likely : 0 < distribution.chance scalar) :
      Allows (.random distribution) (.value scalar)

/-- The arguments that draw. -/
def isRandom : Argument → Bool
  | .random _ | .range _ _ => true
  | .value _ | .label _ | .address _ => false

/-- A range whose ends are in the wrong order. -/
def IsEmptyRange (argument : Argument) : Prop :=
  ∃ lowest highest, argument = .range lowest highest ∧ highest < lowest

theorem Allows.not_empty {argument : Argument} {operand : Operand}
    (allows : argument.Allows operand) : ¬ argument.IsEmptyRange := by
  rintro ⟨lowest, highest, rfl, reversed⟩
  cases allows with
  | range above below => exact Int.not_lt.mpr (Int.le_trans above below) reversed

/-- An argument that is settled becomes an operand that it allows, and takes words exactly when
it draws. -/
theorem settle_drawn {argument : Argument} {operand : Operand} {before after : Random}
    (built : ∀ distribution, argument = .random distribution → distribution.Built)
    (settled : argument.settle before = (.ok operand, after)) :
    argument.Allows operand ∧
      ∃ count, after = before.skip count ∧ (argument.isRandom ↔ 0 < count) := by
  cases argument with
  | value scalar =>
      cases settled
      exact ⟨.value scalar, 0, rfl, by simp [isRandom]⟩
  | label reference =>
      cases settled
      exact ⟨.label reference, 0, rfl, by simp [isRandom]⟩
  | address reference =>
      cases settled
      exact ⟨.address reference, 0, rfl, by simp [isRandom]⟩
  | random distribution =>
      have of_ranges := built distribution rfl
      obtain ⟨scalar, middle, sampled, made⟩ := Computation.bind_ok_iff.mp settled
      cases made
      obtain ⟨value, last, run, inside⟩ := of_ranges.sample_mem before
      obtain ⟨count, enough, taken⟩ := of_ranges.sample_takes before
      rw [sampled] at run taken
      cases run
      exact ⟨.random ((of_ranges.chance_values scalar).2.mpr inside), count, taken,
        fun _ => Nat.lt_of_lt_of_le (by decide) enough, fun _ => rfl⟩
  | range lowest highest =>
      obtain ⟨number, middle, drawn, made⟩ := Computation.bind_ok_iff.mp settled
      cases made
      rw [Draw.between] at drawn
      split at drawn
      · cases drawn
      · rename_i ordered
        cases drawn
        obtain ⟨above, below⟩ := Draw.integer_mem (Int.not_lt.mp ordered) before
        obtain ⟨count, enough, taken⟩ := Draw.takes_integer lowest highest before
        exact ⟨.range above below, count, taken,
          fun _ => Nat.lt_of_lt_of_le (by decide) enough, fun _ => rfl⟩

end Argument

/-! ## Arguments in turn -/

/-- The arguments become the operands one after another.  Each is settled from the source as the
arguments before it left it; those that draw take words, and the others take none. -/
inductive InTurn : Random → List Argument → List Operand → Random → Prop
  | nil (random : Random) : InTurn random [] [] random
  | cons {before after : Random} {argument : Argument} {arguments : List Argument}
      {operand : Operand} {operands : List Operand} (count : Nat)
      (settled : argument.settle before = (.ok operand, before.skip count))
      (draws : argument.isRandom ↔ 0 < count)
      (later : InTurn (before.skip count) arguments operands after) :
      InTurn before (argument :: arguments) (operand :: operands) after

namespace InTurn

variable {before middle after : Random} {arguments others : List Argument}
  {operands more : List Operand}

theorem append (first : InTurn before arguments operands middle)
    (second : InTurn middle others more after) :
    InTurn before (arguments ++ others) (operands ++ more) after := by
  induction first with
  | nil => exact second
  | cons count settled draws _ ih => exact .cons count settled draws (ih second)

theorem allows (turns : InTurn before arguments operands after)
    (built : ∀ distribution, .random distribution ∈ arguments → distribution.Built) :
    List.Forall₂ Argument.Allows arguments operands := by
  induction turns with
  | nil => exact .nil
  | cons count settled _ _ ih =>
      refine .cons (Argument.settle_drawn ?_ settled).1 (ih ?_)
      · rintro distribution rfl
        exact built distribution List.mem_cons_self
      · exact fun distribution member => built distribution (List.mem_cons_of_mem _ member)

/-- What has been settled had no empty range in it. -/
theorem none_empty (turns : InTurn before arguments operands after)
    (built : ∀ distribution, .random distribution ∈ arguments → distribution.Built) :
    ∀ argument ∈ arguments, ¬ argument.IsEmptyRange := by
  intro argument member
  obtain ⟨operand, _, allows⟩ :=
    Paired.exists_partner (turns.allows built).flip argument member
  exact allows.not_empty

theorem of_walk (built : ∀ distribution, .random distribution ∈ arguments → distribution.Built)
    (run : arguments.mapM Argument.settle before = (.ok operands, after)) :
    InTurn before arguments operands after := by
  induction arguments generalizing before operands with
  | nil =>
      rw [List.mapM_nil] at run
      cases run
      exact .nil _
  | cons argument rest ih =>
      rw [List.mapM_cons] at run
      obtain ⟨operand, middle, settled, run⟩ := Computation.bind_ok_iff.mp run
      obtain ⟨others, last, further, run⟩ := Computation.bind_ok_iff.mp run
      cases run
      obtain ⟨_, count, rfl, draws⟩ := Argument.settle_drawn
        (fun distribution same => built distribution (same ▸ List.mem_cons_self)) settled
      exact .cons count settled draws
        (ih (fun distribution member => built distribution (List.mem_cons_of_mem _ member)) further)

/-- A walk that fails has stopped at an empty range, and every argument before it was settled. -/
theorem walk_stops {fault : Fault}
    (built : ∀ distribution, .random distribution ∈ arguments → distribution.Built)
    (failed : arguments.mapM Argument.settle before = (.error fault, after)) :
    ∃ front lowest highest back settled,
      arguments = front ++ .range lowest highest :: back ∧ highest < lowest ∧
      fault = Fault.of (.emptyRandomRange lowest highest) ∧
      InTurn before front settled after := by
  induction arguments generalizing before with
  | nil =>
      rw [List.mapM_nil] at failed
      cases failed
  | cons argument rest ih =>
      have built_here : ∀ distribution, argument = .random distribution → distribution.Built :=
        fun distribution same => built distribution (same ▸ List.mem_cons_self)
      have built_later : ∀ distribution, .random distribution ∈ rest → distribution.Built :=
        fun distribution member => built distribution (List.mem_cons_of_mem _ member)
      rw [List.mapM_cons] at failed
      rcases Computation.bind_error_iff.mp failed with here | ⟨operand, middle, run, failed⟩
      · obtain ⟨lowest, highest, rfl, reversed, told⟩ := Argument.settle_error built_here here
        have unmoved : after = before := by
          rcases Computation.bind_error_iff.mp here with drawing | ⟨_, _, _, made⟩
          · rw [Draw.between, if_pos reversed] at drawing
            cases drawing
            rfl
          · cases made
        exact ⟨[], lowest, highest, rest, [], rfl, reversed, told, unmoved ▸ .nil before⟩
      · obtain ⟨_, count, rfl, draws⟩ := Argument.settle_drawn built_here run
        rcases Computation.bind_error_iff.mp failed with later | ⟨_, _, _, made⟩
        · obtain ⟨front, lowest, highest, back, settled, rfl, reversed, told, turns⟩ :=
            ih built_later later
          exact ⟨argument :: front, lowest, highest, back, operand :: settled, rfl, reversed,
            told, .cons count run draws turns⟩
        · cases made

end InTurn

/-! ## Calls in order -/

/-- The line is the call with each argument settled inside what it declares. -/
structure Call.DrawnAs (call : Call) (line : Instruction) : Prop where
  name : line.name = call.name
  outputs : line.outputs = call.outputs
  situation : line.situation = call.situation
  attributes : line.attributes = call.attributes
  memory : line.memory = call.memory
  location : line.location = call.location
  operands : List.Forall₂ Argument.Allows call.arguments line.operands

/-- The lines stand for the calls, one for each, and their operands were settled in the order of
the lines and of the arguments within each. -/
structure DrawnInside (calls : List Call) (before : Random) (sequence : Sequence)
    (after : Random) : Prop where
  lines : List.Forall₂ Call.DrawnAs calls sequence
  turns : InTurn before (calls.flatMap Call.arguments) (sequence.flatMap Instruction.operands)
    after

/-- The calls cannot be settled: `fault` tells the first empty range among their arguments, with
the location of its call, and words were taken for the arguments before it only. -/
inductive StopsAtEmptyRange : List Call → Random → Fault → Random → Prop
  | intro (earlier : List Call) (call : Call) (later : List Call) {front back : List Argument}
      {lowest highest : Int} {settled : List Operand} {before after : Random} {fault : Fault}
      (inside : call.arguments = front ++ .range lowest highest :: back)
      (reversed : highest < lowest)
      (first : ∀ argument ∈ earlier.flatMap Call.arguments ++ front, ¬ argument.IsEmptyRange)
      (turns : InTurn before (earlier.flatMap Call.arguments ++ front) settled after)
      (ranged : fault.kind = .range)
      (cause : fault.cause = .emptyRandomRange lowest highest)
      (located : fault.location = call.location) :
      StopsAtEmptyRange (earlier ++ call :: later) before fault after

namespace StopsAtEmptyRange

variable {calls : List Call} {before middle after : Random} {fault : Fault}

theorem exists_empty (stops : StopsAtEmptyRange calls before fault after) :
    ∃ call ∈ calls, ∃ argument ∈ call.arguments, argument.IsEmptyRange := by
  cases stops with
  | intro earlier call later inside reversed =>
      exact ⟨call, by simp, _, by simp [inside], _, _, rfl, reversed⟩

/-- A call whose arguments are settled can stand in front. -/
theorem past {call : Call} {operands : List Operand}
    (stops : StopsAtEmptyRange calls middle fault after)
    (turns : InTurn before call.arguments operands middle) (built : call.DrawsBuilt) :
    StopsAtEmptyRange (call :: calls) before fault after := by
  cases stops with
  | intro earlier stopped later inside reversed first turns_later ranged cause located =>
      have assoc : (call :: earlier).flatMap Call.arguments =
          call.arguments ++ earlier.flatMap Call.arguments := List.flatMap_cons
      have all_turns := turns.append turns_later
      have none_empty := List.forall_mem_append.mpr ⟨turns.none_empty built, first⟩
      rw [← List.append_assoc, ← assoc] at all_turns none_empty
      exact .intro (call :: earlier) stopped later inside reversed none_empty all_turns ranged
        cause located

end StopsAtEmptyRange

theorem Call.settle_run (call : Call) (engine : Engine) : call.settle engine =
    let walk := call.arguments.mapM Argument.settle engine.random
    (walk.1.mapError (fun fault => fault.locate? call.location),
      { engine with random := walk.2 }) :=
  rfl

/-- A call that is settled takes its operands in turn from the source. -/
theorem Call.settle_drawn {call : Call} {engine after : Engine} {operands : List Operand}
    (built : call.DrawsBuilt) (run : call.settle engine = (.ok operands, after)) :
    InTurn engine.random call.arguments operands after.random := by
  rw [Call.settle_run] at run
  obtain ⟨done, rfl⟩ := Prod.mk.inj run
  exact InTurn.of_walk built (Prod.ext (Except.mapError_ok_iff.mp done) rfl)

theorem Fault.located_of (cause : Cause) (location : Option Location) :
    ((Fault.of cause).locate? location).cause = cause ∧
      ((Fault.of cause).locate? location).location = location := by
  cases location <;> exact ⟨rfl, rfl⟩

theorem Call.settle_stops {call : Call} {engine after : Engine} {fault : Fault}
    (built : call.DrawsBuilt) (failed : call.settle engine = (.error fault, after))
    (later : List Call) :
    StopsAtEmptyRange (call :: later) engine.random fault after.random := by
  rw [Call.settle_run] at failed
  obtain ⟨reason, rfl⟩ := Prod.mk.inj failed
  obtain ⟨cause, walked, rfl⟩ := Except.mapError_error_iff.mp reason
  obtain ⟨front, lowest, highest, back, settled, inside, reversed, rfl, turns⟩ :=
    InTurn.walk_stops built (Prod.ext walked rfl)
  have built_front : ∀ distribution, .random distribution ∈ front → distribution.Built :=
    fun distribution member => built distribution (inside ▸ List.mem_append_left _ member)
  have told := Fault.located_of (.emptyRandomRange lowest highest) call.location
  refine .intro [] call later inside reversed (turns.none_empty built_front) turns ?_ told.1 told.2
  rw [Fault.kind, told.1]
  rfl

variable {strong : List String} {calls : List Call}

theorem finalizeCalls_drawn (built : ∀ call ∈ calls, call.DrawsBuilt) :
    ∀ {ledger : Ledger} {engine after : Engine} {sequence : Sequence},
      finalizeCalls strong ledger calls engine = (.ok sequence, after) →
      DrawnInside calls engine.random sequence after.random := by
  induction calls with
  | nil =>
      intro ledger engine after sequence run
      cases run
      exact ⟨.nil, .nil _⟩
  | cons call rest ih =>
      intro ledger engine after sequence run
      obtain ⟨built_here, built_later⟩ := List.forall_mem_cons.mp built
      obtain ⟨operands, middle, remarked, others, settled, quiet, further, rfl⟩ :=
        finalizeCalls_cons_ok run
      have here := Call.settle_drawn built_here settled
      obtain ⟨lines, turns⟩ := ih built_later further
      rw [quiet] at turns
      exact ⟨.cons ⟨rfl, rfl, rfl, rfl, rfl, rfl, here.allows built_here⟩ lines,
        here.append turns⟩

theorem finalizeCalls_stops (built : ∀ call ∈ calls, call.DrawsBuilt) :
    ∀ {ledger : Ledger} {engine after : Engine} {fault : Fault},
      finalizeCalls strong ledger calls engine = (.error fault, after) →
      StopsAtEmptyRange calls engine.random fault after.random := by
  induction calls with
  | nil =>
      intro ledger engine after fault failed
      cases failed
  | cons call rest ih =>
      intro ledger engine after fault failed
      obtain ⟨built_here, built_later⟩ := List.forall_mem_cons.mp built
      rcases finalizeCalls_cons_error failed with
        settling | ⟨operands, middle, remarked, settled, quiet, further⟩
      · exact Call.settle_stops built_here settling rest
      · have stops := ih built_later further
        rw [quiet] at stops
        exact stops.past (Call.settle_drawn built_here settled) built_here

/-! ## Streams -/

/-- What finalizing comes to: it fails exactly when the arguments hold an empty range, and then at
the first of these; otherwise every call becomes a line whose operands lie inside what its
arguments declare. -/
structure DrawsInside (stream : Stream Call) (engine : Engine) : Prop where
  fails_iff : (∃ fault after, finalize stream engine = (.error fault, after)) ↔
    ∃ call ∈ stream.emissions, ∃ argument ∈ call.arguments, argument.IsEmptyRange
  stops : ∀ fault after, finalize stream engine = (.error fault, after) →
    StopsAtEmptyRange stream.emissions engine.random fault after.random
  drawn : ∀ sequence after, finalize stream engine = (.ok sequence, after) →
    DrawnInside stream.emissions engine.random sequence after.random

/-- **Operands are drawn inside what was declared.**  From any random source, a stream becomes one
line for each call, with one operand for each argument, unless some range has its ends in the
wrong order; the source gives words to the arguments that draw, one after another, and to nothing
else.  That the distributions have been built is true of every one that a template can hold. -/
theorem finalize_draws_inside (stream : Stream Call) (engine : Engine)
    (built : ∀ call ∈ stream.emissions, call.DrawsBuilt) : DrawsInside stream engine where
  fails_iff := by
    constructor
    · rintro ⟨fault, after, failed⟩
      exact (finalizeCalls_stops built failed).exists_empty
    · rintro ⟨call, member, argument, written, empty⟩
      rcases run : finalize stream engine with ⟨fault | sequence, after⟩
      · exact ⟨fault, after, rfl⟩
      · have turns := (finalizeCalls_drawn built run).turns
        refine absurd empty (turns.none_empty ?_ argument
          (List.mem_flatMap.mpr ⟨call, member, written⟩))
        intro distribution inside
        obtain ⟨other, listed, declared⟩ := List.mem_flatMap.mp inside
        exact built other listed distribution declared
  stops := fun _ _ failed => finalizeCalls_stops built failed
  drawn := fun _ _ run => finalizeCalls_drawn built run

/-- A call with an argument of each sort, the range the widest that a machine word holds. -/
def declaring : Call where
  name := "load"
  arguments := [.value (.text "x1"), .range (-0x8000000000000000) 0x7fffffffffffffff,
    .label (.named "start" BlockId.root), .random Distribution.overlapping,
    .address { kind := .address, level := 1 }]

/-- A call with a range in the right order and one in the wrong order. -/
def backwards : Call where
  name := "store"
  arguments := [.range 1 2, .range 2 1]
  location := some (.caller "draw" 3 1)

/-- Two copies of a call. -/
def twice : Stream Call := (Stream.single declaring).append (Stream.single declaring)

/-- A call that cannot be settled after one that can. -/
def stopping : Stream Call := (Stream.single declaring).append (Stream.single backwards)

/-- Both copies draw, and nothing is drawn for a range in the wrong order. -/
theorem finalize_draws_inside_copies :
    (∃ sequence after, finalize twice (Engine.ofSeed 7) = (.ok sequence, after) ∧
      DrawnInside [declaring, declaring] (Random.ofSeed 7) sequence after.random) ∧
    ∃ fault after, finalize stopping (Engine.ofSeed 7) = (.error fault, after) ∧
      StopsAtEmptyRange [declaring, backwards] (Random.ofSeed 7) fault after.random := by
  have built : declaring.DrawsBuilt := by
    intro distribution member
    obtain rfl : distribution = Distribution.overlapping := by simpa [declaring] using member
    exact Distribution.overlapping_built
  have built_backwards : backwards.DrawsBuilt := by
    intro distribution member
    simp [backwards] at member
  have copies : ∀ call ∈ twice.emissions, call = declaring := by
    simp [twice, Stream.emissions, Stream.append, Stream.single]
  constructor
  · have inside := finalize_draws_inside twice (Engine.ofSeed 7)
      (fun call member => copies call member ▸ built)
    rcases run : finalize twice (Engine.ofSeed 7) with ⟨fault | sequence, after⟩
    · obtain ⟨call, member, argument, written, lowest, highest, rfl, reversed⟩ :=
        inside.fails_iff.mp ⟨fault, after, run⟩
      obtain rfl := copies call member
      simp only [declaring, List.mem_cons, Argument.range.injEq, reduceCtorEq, List.not_mem_nil,
        or_false, false_or] at written
      omega
    · exact ⟨sequence, after, rfl, inside.drawn sequence after run⟩
  · have listed : ∀ call ∈ stopping.emissions, call = declaring ∨ call = backwards := by
      simp [stopping, Stream.emissions, Stream.append, Stream.single]
    have inside := finalize_draws_inside stopping (Engine.ofSeed 7) (by
      intro call member
      rcases listed call member with rfl | rfl
      · exact built
      · exact built_backwards)
    obtain ⟨fault, after, run⟩ := inside.fails_iff.mpr
      ⟨backwards, .tail _ (.head _), .range 2 1, .tail _ (.head _), 2, 1, rfl, by decide⟩
    exact ⟨fault, after, run, inside.stops fault after run⟩

end TestProgram
