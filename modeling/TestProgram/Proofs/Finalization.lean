/-
# TestProgram.Proofs.Finalization -- the lines of a finalized sequence

What finalizing does with the first of some calls is said once for a run that succeeds and once for
one that fails (`finalizeCalls_cons_ok`, `finalizeCalls_cons_error`).  A stream that is finalized
gives one instruction for every call, in order (`finalize_stands`), with one operand for every
argument (`finalize_operands`).  What an instruction declares does
not depend on what was drawn: the ledger alone decides it (`finalize_labels`).
-/
import TestProgram.Finalization
import TestProgram.Proofs.Computation
import TestProgram.Proofs.Paired

namespace TestProgram

set_option autoImplicit false

/-- The instruction is the call with its operands and labels settled. -/
def Call.StandsAs (call : Call) (instruction : Instruction) : Prop :=
  ∃ operands labels, instruction = call.toInstruction operands labels

/-- The labels that each of some calls declares, beginning with a ledger. -/
def Ledger.placeCalls (strong : List String) : Ledger → List Call → List (List PlacedLabel)
  | _, [] => []
  | ledger, call :: rest =>
      let placed := ledger.placeAll strong call.labels
      placed.1 :: Ledger.placeCalls strong placed.2.2 rest

/-! ## One call after another -/

/-- Remarks can be made, and they leave the source alone. -/
theorem remarks_run (names : List String) (engine : Engine) :
    let run := names.forM (fun name => Generation.remark (.weakDropped name)) engine
    run.1 = .ok () ∧ run.2.random = engine.random := by
  induction names generalizing engine with
  | nil => exact ⟨rfl, rfl⟩
  | cons name rest ih => exact ih _

section Steps

variable {strong : List String} {ledger : Ledger} {call : Call} {rest : List Call}
  {engine after : Engine}

/-- The first call is settled, and the others are finalized with the ledger after it. -/
theorem finalizeCalls_cons_ok {sequence : Sequence}
    (run : finalizeCalls strong ledger (call :: rest) engine = (.ok sequence, after)) :
    ∃ operands middle remarked others,
      call.settle engine = (.ok operands, middle) ∧ remarked.random = middle.random ∧
      finalizeCalls strong (ledger.placeAll strong call.labels).2.2 rest remarked =
        (.ok others, after) ∧
      sequence = call.toInstruction operands (ledger.placeAll strong call.labels).1 :: others := by
  rw [finalizeCalls] at run
  obtain ⟨operands, middle, settled, run⟩ := Computation.bind_ok_iff.mp run
  obtain ⟨_, remarked, told, run⟩ := Computation.bind_ok_iff.mp run
  obtain ⟨others, last, further, run⟩ := Computation.bind_ok_iff.mp run
  cases run
  have quiet := (remarks_run (ledger.placeAll strong call.labels).2.1 middle).2
  rw [told] at quiet
  exact ⟨operands, middle, remarked, others, settled, quiet, further, rfl⟩

/-- The first call cannot be settled, or the others cannot be finalized after it. -/
theorem finalizeCalls_cons_error {fault : Fault}
    (failed : finalizeCalls strong ledger (call :: rest) engine = (.error fault, after)) :
    call.settle engine = (.error fault, after) ∨
      ∃ operands middle remarked,
        call.settle engine = (.ok operands, middle) ∧ remarked.random = middle.random ∧
        finalizeCalls strong (ledger.placeAll strong call.labels).2.2 rest remarked =
          (.error fault, after) := by
  rw [finalizeCalls] at failed
  rcases Computation.bind_error_iff.mp failed with settling | ⟨operands, middle, settled, failed⟩
  · exact .inl settling
  · have quiet := remarks_run (ledger.placeAll strong call.labels).2.1 middle
    rcases Computation.bind_error_iff.mp failed with told | ⟨_, remarked, told, failed⟩
    · rw [told] at quiet
      cases quiet.1
    · rw [told] at quiet
      rcases Computation.bind_error_iff.mp failed with further | ⟨_, _, _, made⟩
      · exact .inr ⟨operands, middle, remarked, settled, quiet.2, further⟩
      · cases made

end Steps

theorem finalizeCalls_ok {strong : List String} {calls : List Call} :
    ∀ {ledger : Ledger} {engine after : Engine} {sequence : Sequence},
      finalizeCalls strong ledger calls engine = (.ok sequence, after) →
      List.Forall₂ Call.StandsAs calls sequence ∧
        sequence.map Instruction.labels = ledger.placeCalls strong calls := by
  induction calls with
  | nil =>
      intro ledger engine after sequence run
      cases run
      exact ⟨.nil, rfl⟩
  | cons call rest ih =>
      intro ledger engine after sequence run
      obtain ⟨operands, _, _, others, _, _, further, rfl⟩ := finalizeCalls_cons_ok run
      obtain ⟨stands, labels⟩ := ih further
      refine ⟨.cons ⟨operands, _, rfl⟩ stands, ?_⟩
      rw [List.map_cons, labels]
      rfl

theorem finalize_stands {stream : Stream Call} {engine after : Engine} {sequence : Sequence}
    (run : finalize stream engine = (.ok sequence, after)) :
    List.Forall₂ Call.StandsAs stream.emissions sequence :=
  (finalizeCalls_ok run).1

theorem finalize_labels {stream : Stream Call} {engine after : Engine} {sequence : Sequence}
    (run : finalize stream engine = (.ok sequence, after)) :
    sequence.map Instruction.labels =
      Ledger.placeCalls (strongNames stream.emissions) {} stream.emissions :=
  (finalizeCalls_ok run).2

/-! ## Operands -/

/-- An operand that an argument can become. -/
def Argument.SettlesAs (argument : Argument) (operand : Operand) : Prop :=
  ∃ before after, argument.settle before = (.ok operand, after)

/-- A label operand comes from a reference as it was written, and is not bound yet. -/
theorem Argument.settlesAs_label_iff {argument : Argument} {reference : LabelReference}
    {bound : Option ResolvedLabel} :
    argument.SettlesAs (.label reference bound) ↔
      argument = .label reference ∧ bound = none := by
  constructor
  · rintro ⟨before, after, run⟩
    cases argument with
    | value scalar => cases run
    | label written =>
        cases run
        exact ⟨rfl, rfl⟩
    | address written => cases run
    | random distribution =>
        obtain ⟨_, _, _, run⟩ := Computation.bind_ok_iff.mp run
        cases run
    | range lowest highest =>
        obtain ⟨_, _, _, run⟩ := Computation.bind_ok_iff.mp run
        cases run
  · rintro ⟨rfl, rfl⟩
    exact ⟨Random.ofSeed 0, _, rfl⟩

theorem Call.settle_ok {call : Call} {operands : List Operand} {engine after : Engine}
    (run : call.settle engine = (.ok operands, after)) :
    List.Forall₂ Argument.SettlesAs call.arguments operands := by
  rcases drawn : call.arguments.mapM Argument.settle engine.random with ⟨outcome, random⟩
  simp only [Call.settle, Generation.locating, Generation.sample, drawn] at run
  cases outcome with
  | error fault => cases run
  | ok settled =>
    cases run
    exact Computation.mapM_ok drawn

theorem finalizeCalls_operands {strong : List String} {calls : List Call} :
    ∀ {ledger : Ledger} {engine after : Engine} {sequence : Sequence},
      finalizeCalls strong ledger calls engine = (.ok sequence, after) →
      List.Forall₂ (fun call line =>
        List.Forall₂ Argument.SettlesAs call.arguments line.operands) calls sequence := by
  induction calls with
  | nil =>
      intro ledger engine after sequence run
      cases run
      exact .nil
  | cons call rest ih =>
      intro ledger engine after sequence run
      obtain ⟨operands, _, _, others, settled, _, further, rfl⟩ := finalizeCalls_cons_ok run
      exact .cons (Call.settle_ok settled) (ih further)

theorem finalize_operands {stream : Stream Call} {engine after : Engine} {sequence : Sequence}
    (run : finalize stream engine = (.ok sequence, after)) :
    List.Forall₂ (fun call line =>
      List.Forall₂ Argument.SettlesAs call.arguments line.operands) stream.emissions sequence :=
  finalizeCalls_operands run

/-- A call of the stream has this reference among its arguments. -/
def Stream.Refers (stream : Stream Call) (position : Nat) (reference : LabelReference) : Prop :=
  ∃ call, stream.emissions[position]? = some call ∧ .label reference ∈ call.arguments

/-- The references of a finalized sequence are those of its stream, none of them bound. -/
theorem refers_finalized_iff {stream : Stream Call} {engine after : Engine} {sequence : Sequence}
    (run : finalize stream engine = (.ok sequence, after)) {position : Nat}
    {reference : LabelReference} :
    stream.Refers position reference ↔
      ∃ line bound, sequence[position]? = some line ∧ .label reference bound ∈ line.operands := by
  have paired := finalize_operands run
  constructor
  · rintro ⟨call, there, written⟩
    obtain ⟨line, here, operands⟩ := Paired.at_place paired.flip there
    obtain ⟨operand, listed, before, after, settled⟩ :=
      Paired.exists_partner operands.flip _ written
    cases settled
    exact ⟨line, none, here, listed⟩
  · rintro ⟨line, bound, here, listed⟩
    obtain ⟨call, there, operands⟩ := Paired.at_place paired here
    obtain ⟨argument, written, settles⟩ := Paired.exists_partner operands _ listed
    obtain ⟨rfl, _⟩ := Argument.settlesAs_label_iff.mp settles
    exact ⟨call, there, written⟩

end TestProgram
