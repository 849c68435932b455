/-
# TestProgram.Proofs.NumericReferences -- numeric references as an assembler reads them

A numeric reference is printed with its number and a letter, `1f` or `1b`, and an assembler
takes it for the next or the last line that is labelled `1:` (`textual?`).  What it was bound
to is the next or the last declaration of that number that it sees (`local?_numeric`), and
what it sees depends on blocks, of which the listing shows nothing.

So the two can differ: `numeric_reference_reads_iff` says that they agree exactly when no line
between the reference and its declaration is labelled with the number by a label that is out
of sight, and `hidden_number_between` is a template where one is.
-/
import TestProgram.Listing
import TestProgram.Proofs.Generation
import TestProgram.Proofs.Placement

namespace TestProgram

set_option autoImplicit false

/-! ## The next entry and the last -/

section Search

variable {β : Type} {forward : Bool} {position place : Nat} {entries : List (Nat × β)}
  {entry : Nat × β}

/-- The place lies in the direction of a search from a position; the position itself is one of
the places behind. -/
def Toward (forward : Bool) (position place : Nat) : Prop :=
  if forward then position < place else place ≤ position

/-- A search from the position passes this place before it comes to the other. -/
def Passed (forward : Bool) (position place passed : Nat) : Prop :=
  if forward then position < passed ∧ passed < place else place < passed ∧ passed ≤ position

/-- The first entry behind a position, or the last one up to it. -/
def next? (forward : Bool) (position : Nat) (entries : List (Nat × β)) : Option (Nat × β) :=
  if forward then entries.find? (fun entry => position < entry.1)
  else (entries.filter (fun entry => entry.1 ≤ position)).getLast?

/-- Entries in the order of their places. -/
def InOrder (entries : List (Nat × β)) : Prop :=
  entries.Pairwise (fun first second => first.1 ≤ second.1)

theorem next?_forward (ordered : InOrder entries)
    (found : entries.find? (fun entry => decide (position < entry.1)) = some entry) :
    entry ∈ entries ∧ position < entry.1 ∧
      ∀ other ∈ entries, ¬ (position < other.1 ∧ other.1 < entry.1) := by
  obtain ⟨ahead, before, behind, rfl, skipped⟩ := List.find?_eq_some_iff_append.mp found
  refine ⟨by simp, by simpa using ahead, ?_⟩
  rintro other member ⟨after_it, before_it⟩
  rcases List.mem_append.mp member with earlier | later
  · have not_ahead := skipped other earlier
    simp only [Bool.not_eq_true', decide_eq_false_iff_not] at not_ahead
    omega
  · have sorted := (List.pairwise_append.mp ordered).2.1
    rcases List.mem_cons.mp later with rfl | later
    · omega
    · have := List.rel_of_pairwise_cons sorted later
      omega

theorem next?_back (ordered : InOrder entries)
    (found : (entries.filter (fun entry => decide (entry.1 ≤ position))).getLast? = some entry) :
    entry ∈ entries ∧ entry.1 ≤ position ∧
      ∀ other ∈ entries, ¬ (entry.1 < other.1 ∧ other.1 ≤ position) := by
  have held := List.mem_filter.mp (List.mem_of_getLast? found)
  refine ⟨held.1, by simpa using held.2, ?_⟩
  rintro other member ⟨after_it, up_to⟩
  obtain ⟨before, cut⟩ := List.getLast?_eq_some_iff.mp found
  have sorted : InOrder (before ++ [entry]) := cut ▸ ordered.filter _
  have listed : other ∈ before ++ [entry] :=
    cut ▸ List.mem_filter.mpr ⟨member, by simpa using up_to⟩
  rcases List.mem_append.mp listed with earlier | last
  · have := (List.pairwise_append.mp sorted).2.2 other earlier entry (List.mem_singleton.mpr rfl)
    omega
  · obtain rfl := List.mem_singleton.mp last
    omega

/-- What a search comes to is an entry in its direction, and it has passed no other. -/
theorem next?_spec (ordered : InOrder entries) (found : next? forward position entries = some entry) :
    entry ∈ entries ∧ Toward forward position entry.1 ∧
      ∀ other ∈ entries, ¬ Passed forward position entry.1 other.1 := by
  cases forward with
  | true => exact next?_forward ordered found
  | false => exact next?_back ordered found

theorem exists_next? (member : entry ∈ entries) (toward : Toward forward position entry.1) :
    ∃ found, next? forward position entries = some found := by
  rw [← Option.isSome_iff_exists]
  cases forward with
  | true =>
      change (List.find? _ entries).isSome = true
      rw [List.find?_isSome]
      exact ⟨entry, member, by simpa using (show position < entry.1 from toward)⟩
  | false =>
      change (List.getLast? _).isSome = true
      rw [List.getLast?_isSome]
      refine List.ne_nil_of_mem (List.mem_filter.mpr ⟨member, ?_⟩)
      simpa using (show entry.1 ≤ position from toward)

/-- A search comes to the place of an entry in its direction exactly when it passes no other on
the way. -/
theorem next?_place_iff (ordered : InOrder entries) (member : entry ∈ entries)
    (toward : Toward forward position entry.1) :
    (next? forward position entries).map Prod.fst = some entry.1 ↔
      ∀ other ∈ entries, ¬ Passed forward position entry.1 other.1 := by
  constructor
  · intro reached
    obtain ⟨found, search, same⟩ := Option.map_eq_some_iff.mp reached
    rw [← same]
    exact (next?_spec ordered search).2.2
  · intro alone
    obtain ⟨found, search⟩ := exists_next? member toward
    obtain ⟨held, ahead, passed⟩ := next?_spec ordered search
    have not_past := passed entry member
    have not_before := alone found held
    have same : found.1 = entry.1 := by
      cases forward with
      | true =>
          change ¬ (position < entry.1 ∧ entry.1 < found.1) at not_past
          change ¬ (position < found.1 ∧ found.1 < entry.1) at not_before
          change position < entry.1 at toward
          change position < found.1 at ahead
          omega
      | false =>
          change ¬ (found.1 < entry.1 ∧ entry.1 ≤ position) at not_past
          change ¬ (entry.1 < found.1 ∧ found.1 ≤ position) at not_before
          change entry.1 ≤ position at toward
          change found.1 ≤ position at ahead
          omega
    rw [search, Option.map_some, same]

end Search

/-! ## Declarations in order -/

namespace LabelIndex

theorem declarations_inOrder (instructions : Sequence) : InOrder (declarations instructions) := by
  have places : ∀ (lines : Sequence) (start : Nat), InOrder ((lines.zipIdx start).flatMap
      (fun entry => entry.1.labels.map (entry.2, ·))) := by
    intro lines
    induction lines with
    | nil => intro start; exact .nil
    | cons line rest ih =>
        intro start
        rw [List.zipIdx_cons, List.flatMap_cons]
        refine List.pairwise_append.mpr ⟨?_, ih (start + 1), ?_⟩
        · exact List.pairwise_map.mpr (List.pairwise_of_forall (fun _ _ => Nat.le_refl start))
        · intro first here second there
          obtain ⟨_, _, rfl⟩ := List.mem_map.mp here
          obtain ⟨⟨_, place⟩, listed, labelled⟩ := List.mem_flatMap.mp there
          obtain ⟨_, _, rfl⟩ := List.mem_map.mp labelled
          exact Nat.le_of_succ_le (List.mem_zipIdx listed).1
  exact places instructions 0

/-- A numeric reference means the next or the last of the declarations that it sees. -/
theorem local?_numeric (instructions : Sequence) (position : Nat) (slot : NumericSlot)
    (forward : Bool) (scope : BlockId) :
    local? instructions position (.numeric slot forward scope) =
      next? forward position (visible (.numeric slot forward scope) instructions) := by
  cases forward <;> rfl

theorem declarations_unbound (instructions : Sequence) :
    declarations (instructions.map Instruction.unbound) = declarations instructions := by
  rw [declarations, declarations, List.zipIdx_map, List.flatMap_map]
  rfl

end LabelIndex

/-! ## What a listing says -/

/-- The line at this place is labelled with the text. -/
def Sequence.LabelledAt (sequence : Sequence) (place : Nat) (text : String) : Prop :=
  ∃ placed, (place, placed) ∈ LabelIndex.declarations sequence ∧ placed.rendered = text

/-- The line at this place is labelled with the text by a label that a numeric reference of
this scope does not see. -/
def Sequence.HiddenAt (sequence : Sequence) (place : Nat) (slot : NumericSlot)
    (scope : BlockId) : Prop :=
  ∃ placed, (place, placed) ∈ LabelIndex.declarations sequence ∧
    placed.rendered = toString slot.val ∧
    ¬ (placed.label.name = .numeric slot ∧ placed.label.scope.encloses scope = true)

/-- The next or the last line that is labelled with the text, whatever the label. -/
def Sequence.textual? (sequence : Sequence) (forward : Bool) (position : Nat) (text : String) :
    Option Nat :=
  (next? forward position ((LabelIndex.declarations sequence).filter
    (fun entry => entry.2.rendered == text))).map Prod.fst

namespace LabelIndex

/-- What is visible of a number is printed with the number. -/
theorem mem_visible_numeric {sequence : Sequence} {slot : NumericSlot} (forward : Bool)
    {scope : BlockId} {entry : Nat × PlacedLabel} :
    entry ∈ visible (.numeric slot forward scope) sequence ↔
      entry ∈ declarations sequence ∧
        (entry.2.label.name = .numeric slot ∧ entry.2.label.scope.encloses scope = true) := by
  rw [visible, List.mem_filter]
  simp [LabelReference.scope, and_comm]

end LabelIndex

/-- A sequence that a stream was finalized to. -/
def Sequence.Finalized (sequence : Sequence) : Prop :=
  ∃ stream before after, finalize stream before = (.ok sequence, after)

/-- Numeric labels of a finalized sequence are printed with their number. -/
theorem Sequence.Finalized.numeric {sequence : Sequence} (finalized : sequence.Finalized)
    {place : Nat} {placed : PlacedLabel} {slot : NumericSlot}
    (declared : (place, placed) ∈ LabelIndex.declarations sequence)
    (numbered : placed.label.name = .numeric slot) : placed.rendered = toString slot.val := by
  obtain ⟨stream, before, after, run⟩ := finalized
  obtain ⟨_, _, label, _, _, _, kept⟩ := (LabelNames.mem_declarations_finalized run).mp declared
  exact LabelNames.placed?_numeric (LabelNames.placed?_label kept ▸ numbered) kept

section Bound

variable {sequence : Sequence} {slot : NumericSlot} {forward : Bool} {scope : BlockId}
  {position place : Nat} {placed : PlacedLabel}

/-- What a numeric reference means in a finalized sequence: a line in its direction that is
labelled with its number, with nothing in sight before it. -/
theorem Sequence.Finalized.meaning (finalized : sequence.Finalized)
    (found : LabelIndex.local? sequence position (.numeric slot forward scope) =
      some (place, placed)) :
    (place, placed) ∈ LabelIndex.declarations sequence ∧ placed.rendered = toString slot.val ∧
      Toward forward position place ∧
      ∀ other ∈ LabelIndex.visible (.numeric slot forward scope) sequence,
        ¬ Passed forward position place other.1 := by
  have ordered : InOrder (LabelIndex.visible (.numeric slot forward scope) sequence) :=
    (LabelIndex.declarations_inOrder sequence).filter _
  rw [LabelIndex.local?_numeric] at found
  obtain ⟨member, toward, alone⟩ := next?_spec ordered found
  obtain ⟨declared, numbered, _⟩ := (LabelIndex.mem_visible_numeric forward).mp member
  exact ⟨declared, finalized.numeric declared numbered, toward, alone⟩

/-- Between a reference and what it means a label of its number is one that it does not see. -/
theorem Sequence.Finalized.labelled_iff_hidden (finalized : sequence.Finalized)
    (found : LabelIndex.local? sequence position (.numeric slot forward scope) =
      some (place, placed)) {between : Nat} (passed : Passed forward position place between) :
    sequence.LabelledAt between (toString slot.val) ↔ sequence.HiddenAt between slot scope := by
  constructor
  · rintro ⟨other, declared, printed⟩
    refine ⟨other, declared, printed, fun seen => ?_⟩
    have visible := (LabelIndex.mem_visible_numeric forward).mpr ⟨declared, seen⟩
    exact (finalized.meaning found).2.2.2 _ visible passed
  · rintro ⟨other, declared, printed, _⟩
    exact ⟨other, declared, printed⟩

/-- The text of a numeric reference leads where it is bound exactly when it passes no label of
its number on the way. -/
theorem Sequence.Finalized.textual?_iff (finalized : sequence.Finalized)
    (found : LabelIndex.local? sequence position (.numeric slot forward scope) =
      some (place, placed)) :
    sequence.textual? forward position (toString slot.val) = some place ↔
      ∀ between, Passed forward position place between →
        ¬ sequence.LabelledAt between (toString slot.val) := by
  obtain ⟨declared, printed, toward, _⟩ := finalized.meaning found
  have listed : (place, placed) ∈ (LabelIndex.declarations sequence).filter
      (fun entry => entry.2.rendered == toString slot.val) :=
    List.mem_filter.mpr ⟨declared, by simpa using printed⟩
  rw [Sequence.textual?, next?_place_iff ((LabelIndex.declarations_inOrder sequence).filter _)
    listed toward]
  constructor
  · rintro alone between passed ⟨other, there, labelled⟩
    exact alone (between, other) (List.mem_filter.mpr ⟨there, by simpa using labelled⟩) passed
  · rintro alone ⟨between, other⟩ member passed
    obtain ⟨there, labelled⟩ := List.mem_filter.mp member
    exact alone between passed ⟨other, there, by simpa using labelled⟩

end Bound

/-! ## Generated sequences -/

theorem Session.generateSequences_finalized {block : Block Call} {session after : Session}
    {sequences : List Sequence}
    (run : Session.generateSequences block session = (.ok sequences, after)) :
    ∀ sequence ∈ sequences, sequence.Finalized := by
  obtain ⟨_, _, here, run⟩ := Computation.bind_ok_iff.mp run
  cases here
  rcases body : (do
      let streams ← Expansion.expand session.registry block.toTree
      streams.mapM finalize) session.engine with ⟨outcome, engine⟩
  simp only [Action.generation, body] at run
  cases run
  obtain ⟨streams, _, _, finalized⟩ := Computation.bind_ok_iff.mp body
  intro sequence member
  obtain ⟨stream, _, before, after, run⟩ :=
    Paired.exists_partner (Computation.mapM_ok finalized) sequence member
  exact ⟨stream, before, after, run⟩

theorem Template.program_finalized {ε : Type} {template : Template ε} {studio after : Studio ε}
    {program : Program} (run : template.program studio = (.ok program, after)) :
    ∀ kind, ∀ sequence ∈ program.code kind, sequence.Finalized := by
  intro kind
  obtain ⟨_, _, ends⟩ := Template.program_ends run kind
  obtain ⟨_, generated⟩ := ends.generated
  exact Session.generateSequences_finalized generated

/-- A generated sequence is a finalized one with its references bound to what they mean
there. -/
theorem Template.generate_finalized {ε : Type} {template : Template ε} {studio after : Studio ε}
    {generated : Generated} (run : template.generate studio = (.ok generated, after))
    {phase : PhaseKind} {number : Nat} {sequence : Sequence}
    (held : (generated.code phase)[number]? = some sequence) :
    ∃ finalized : Sequence, finalized.Finalized ∧
      LabelIndex.declarations sequence = LabelIndex.declarations finalized ∧
      ∃ index : LabelIndex, ∀ position line reference bound, sequence[position]? = some line →
        .label reference bound ∈ line.operands →
        ∃ label, bound = some label ∧
          index.find? phase number finalized position reference = some label := by
  obtain ⟨program, middle, program_run, linked⟩ := Computation.bind_ok_iff.mp run
  obtain ⟨kinds, _⟩ := Template.program_ok program_run
  have bound := (Session.link_ok (Act.session_ok linked)).1 phase
  obtain ⟨⟨finalized, place⟩, listed, resolved⟩ :=
    Paired.at_place (LabelIndex.bindPhase_ok bound) held
  rw [List.getElem?_zipIdx, Option.map_eq_some_iff] at listed
  obtain ⟨_, found, same⟩ := listed
  cases same
  rw [Nat.zero_add, kinds phase] at resolved
  obtain ⟨unbound, meant⟩ := LabelIndex.resolve_ok resolved
  refine ⟨finalized, ?_, ?_, program.index, meant⟩
  · exact Template.program_finalized program_run phase finalized (List.mem_of_getElem? found)
  · rw [← LabelIndex.declarations_unbound, unbound, LabelIndex.declarations_unbound]

/-- **When the text of a numeric reference leads where it is bound.**  In a generated template
every numeric reference is bound to a line of its own sequence and printed with the number that
this line is labelled with.  The text passes no other line labelled with it on the way, and so
leads to that line, exactly when no label of this number that the reference does not see stands
between them. -/
theorem numeric_reference_reads_iff {ε : Type} (template : Template ε) (studio after : Studio ε)
    (generated : Generated) (run : template.generate studio = (.ok generated, after))
    (phase : PhaseKind) (number : Nat) (sequence : Sequence)
    (held : (generated.code phase)[number]? = some sequence) (position : Nat) (line : Instruction)
    (here : sequence[position]? = some line) (slot : NumericSlot) (forward : Bool)
    (scope : BlockId) (bound : Option ResolvedLabel)
    (refers : .label (.numeric slot forward scope) bound ∈ line.operands) :
    ∃ place, bound = some ⟨toString slot.val, .code phase number place⟩ ∧
      (Operand.label (.numeric slot forward scope) bound).render =
        toString slot.val ++ LabelReference.direction forward ∧
      Toward forward position place ∧ sequence.LabelledAt place (toString slot.val) ∧
      ((∀ between, Passed forward position place between →
          ¬ sequence.LabelledAt between (toString slot.val)) ↔
        ∀ between, Passed forward position place between →
          ¬ sequence.HiddenAt between slot scope) ∧
      (sequence.textual? forward position (toString slot.val) = some place ↔
        ∀ between, Passed forward position place between →
          ¬ sequence.HiddenAt between slot scope) := by
  obtain ⟨finalized, is_finalized, declarations, index, bindings⟩ :=
    Template.generate_finalized run held
  obtain ⟨label, rfl, found⟩ := bindings position line _ bound here refers
  rw [LabelIndex.find?] at found
  split at found
  · rename_i place placed meant
    cases found
    obtain ⟨declared, printed, toward, _⟩ := is_finalized.meaning meant
    have hidden : (∀ between, Passed forward position place between →
          ¬ finalized.LabelledAt between (toString slot.val)) ↔
        ∀ between, Passed forward position place between →
          ¬ finalized.HiddenAt between slot scope :=
      forall₂_congr (fun between passed => not_congr (is_finalized.labelled_iff_hidden meant passed))
    have reads := (is_finalized.textual?_iff meant).trans hidden
    simp only [Sequence.LabelledAt, Sequence.HiddenAt, Sequence.textual?, declarations] at *
    exact ⟨place, by rw [printed], by rw [Operand.render, printed], toward,
      ⟨placed, declared, printed⟩, hidden, reads⟩
  · cases found

/-- A jump forward to label 1, a block with a label of its own, and label 1. -/
def numberedInside (inner : Int) : Template Unit where
  pre := pure ()
  main := do
    Act.session (Session.addCall
      { name := "jump", arguments := [.label (.numeric 1 true BlockId.root)] } (.caller "skip" 1 1))
    Act.scopedBlock .sequence {} (.caller "skip" 2 1) (Act.session do
      Session.declareNumericLabel inner (.caller "skip" 3 1)
      Session.addCall { name := "nop" } (.caller "skip" 4 1))
    Act.session do
      Session.declareNumericLabel 1 (.caller "skip" 5 1)
      Session.addCall { name := "nop" } (.caller "skip" 6 1)
  post := pure ()

/-- The labels of the main sequence with their places, and the operands of its first line. -/
def readings (template : Template Unit) :
    Option (List (Nat × PlacedLabel) × Option (List Operand)) :=
  match (template.generate ⟨Session.new {}, ()⟩).1 with
  | .ok generated => (generated.code .main)[0]?.map (fun sequence =>
      (LabelIndex.declarations sequence, (sequence[0]?).map Instruction.operands))
  | .error _ => none

theorem readings_some {template : Template Unit} {declarations : List (Nat × PlacedLabel)}
    {operands : List Operand} (read : readings template = some (declarations, some operands)) :
    ∃ generated after sequence line,
      template.generate ⟨Session.new {}, ()⟩ = (.ok generated, after) ∧
      (generated.code .main)[0]? = some sequence ∧ sequence[0]? = some line ∧
      LabelIndex.declarations sequence = declarations ∧ line.operands = operands := by
  unfold readings at read
  rcases run : template.generate ⟨Session.new {}, ()⟩ with ⟨outcome, after⟩
  rw [run] at read
  cases outcome with
  | error fault => cases read
  | ok generated =>
      obtain ⟨sequence, held, both⟩ := Option.map_eq_some_iff.mp read
      obtain ⟨declared, first⟩ := Prod.mk.inj both
      obtain ⟨line, here, written⟩ := Option.map_eq_some_iff.mp first
      exact ⟨generated, after, sequence, line, rfl, held, here, declared, written⟩

theorem numeric_reference_reads_other_number :
    ∃ generated after sequence,
      (numberedInside 2).generate ⟨Session.new {}, ()⟩ = (.ok generated, after) ∧
      (generated.code .main)[0]? = some sequence ∧ sequence.textual? true 0 "1" = some 2 := by
  have read : readings (numberedInside 2) = some
      ([(1, ⟨{ name := .numeric 2, scope := BlockId.root.child 1 }, "2"⟩),
        (2, ⟨{ name := .numeric 1, scope := BlockId.root }, "1"⟩)],
       some [.label (.numeric 1 true BlockId.root) (some ⟨"1", .code .main 0 2⟩)]) := by
    decide +kernel
  obtain ⟨generated, after, sequence, line, run, held, here, declared, operands⟩ :=
    readings_some read
  obtain ⟨place, bound, _, _, _, _, reads⟩ :=
    numeric_reference_reads_iff (numberedInside 2) _ after generated run .main 0 sequence held 0
      line here 1 true BlockId.root _ (operands ▸ List.mem_singleton.mpr rfl)
  cases bound
  refine ⟨generated, after, sequence, run, held, reads.mpr ?_⟩
  rintro between ⟨_, before⟩ ⟨placed, there, printed, _⟩
  rw [declared] at there
  rcases List.mem_cons.mp there with same | last
  · cases same
    revert printed
    decide
  · cases List.mem_singleton.mp last
    exact Nat.lt_irrefl 2 before

/-- The text of a jump can lead to a label that the jump does not see. -/
theorem hidden_number_between :
    ∃ generated after sequence line,
      (numberedInside 1).generate ⟨Session.new {}, ()⟩ = (.ok generated, after) ∧
      (generated.code .main)[0]? = some sequence ∧ sequence[0]? = some line ∧
      line.operands = [.label (.numeric 1 true BlockId.root) (some ⟨"1", .code .main 0 2⟩)] ∧
      line.operands.map Operand.render = ["1f"] ∧
      Passed true 0 2 1 ∧ sequence.LabelledAt 1 "1" ∧ sequence.textual? true 0 "1" = some 1 := by
  have read : readings (numberedInside 1) = some
      ([(1, ⟨{ name := .numeric 1, scope := BlockId.root.child 1 }, "1"⟩),
        (2, ⟨{ name := .numeric 1, scope := BlockId.root }, "1"⟩)],
       some [.label (.numeric 1 true BlockId.root) (some ⟨"1", .code .main 0 2⟩)]) := by
    decide +kernel
  obtain ⟨generated, after, sequence, line, run, held, here, declared, operands⟩ :=
    readings_some read
  refine ⟨generated, after, sequence, line, run, held, here, operands, ?_, ?_, ?_, ?_⟩
  · rw [operands]
    rfl
  · exact ⟨by decide, by decide⟩
  · exact ⟨_, declared ▸ List.mem_cons_self, rfl⟩
  · rw [Sequence.textual?, declared]
    decide

end TestProgram
