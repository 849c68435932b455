/-
# TestProgram.Proofs.BindingInPlace -- binding the operands of a sequence that is kept

A sequence can be bound where it stands, in two passes.  The first looks up every label operand,
line by line, and notes what it found with the place of the operand (`bindings`); it stops at the
first operand that means nothing.  The second writes the notes into the sequence (`write`).

No lookup comes after a write and a write changes nothing that a lookup reads, so the two passes
come to what binding operand by operand comes to (`bindInPlace_atomic`): a failure leaves the
sequence as it was, a success changes nothing but what label operands are bound to, and a second
run does what the first did.  What makes this so is that a sequence is known by its lines without
bindings and by what its operands are bound to (`Settled.unique`).
-/
import TestProgram.Proofs.Computation
import TestProgram.Proofs.NumericReferences
import TestProgram.Proofs.Resolution

namespace TestProgram

set_option autoImplicit false

/-! ## Two passes -/

/-- What a label operand is bound to, with its line and its number there. -/
structure Binding where
  position : Nat
  operand : Nat
  label : ResolvedLabel

def Operand.bindTo (label : ResolvedLabel) : Operand → Operand
  | .label reference _ => .label reference (some label)
  | operand => operand

def Instruction.bindOperand (line : Instruction) (operand : Nat) (label : ResolvedLabel) :
    Instruction :=
  { line with operands := line.operands.modify operand (Operand.bindTo label) }

/-- The sequence with the operand of the binding bound. -/
def Sequence.write (sequence : Sequence) (binding : Binding) : Sequence :=
  sequence.modify binding.position (·.bindOperand binding.operand binding.label)

/-- A computation on a sequence that is kept. -/
abbrev Binder (α : Type) := ExceptT Fault (StateM Sequence) α

namespace LabelIndex

section Passes

variable (index : LabelIndex) (phase : PhaseKind) (number : Nat)

/-- What the operand with a number in a line is to be bound to, if it refers to a label. -/
def binding? (sequence : Sequence) (line : Instruction) (position : Nat) :
    Operand × Nat → Except Fault (Option Binding)
  | (.label reference _, operand) =>
      match index.find? phase number sequence position reference with
      | some label => .ok (some ⟨position, operand, label⟩)
      | none => .error ((Fault.of (.unresolvedLabel reference)).locate? line.location)
  | _ => .ok none

def lineBindings (sequence : Sequence) (entry : Instruction × Nat) :
    Except Fault (List (Option Binding)) :=
  entry.1.operands.zipIdx.mapM (index.binding? phase number sequence entry.1 entry.2)

/-- The first pass. -/
def bindings (sequence : Sequence) : Except Fault (List Binding) := do
  let lines ← sequence.zipIdx.mapM (index.lineBindings phase number sequence)
  .ok (lines.flatten.filterMap id)

/-- Bind the operands of the sequence that is kept: the second pass writes what the first found. -/
def bindInPlace : Binder Unit := do
  let sequence ← get
  let found ← (fun kept => (index.bindings phase number sequence, kept) : Binder (List Binding))
  found.forM (fun binding => modify (·.write binding))

end Passes

end LabelIndex

/-! ## Operands by their places -/

/-- A change that a view does not show changes nothing in the view of a list. -/
theorem map_modify_of_same {α β : Type} {view : α → β} {change : α → α}
    (same : ∀ item, view (change item) = view item) (items : List α) (place : Nat) :
    (items.modify place change).map view = items.map view := by
  refine List.ext_getElem? (fun other => ?_)
  rw [List.getElem?_map, List.getElem?_map, List.getElem?_modify]
  cases items[other]? with
  | none => rfl
  | some item => by_cases here : place = other <;> simp [here, same]

namespace Sequence

def operandAt (sequence : Sequence) (position operand : Nat) : Option Operand :=
  (sequence[position]?).bind (fun line => line.operands[operand]?)

theorem operandAt_write (sequence : Sequence) (binding : Binding) (position operand : Nat) :
    (sequence.write binding).operandAt position operand =
      if position = binding.position ∧ operand = binding.operand then
        (sequence.operandAt position operand).map (Operand.bindTo binding.label)
      else sequence.operandAt position operand := by
  rw [operandAt, operandAt, write, List.getElem?_modify]
  cases sequence[position]? with
  | none => simp
  | some line =>
      by_cases here : binding.position = position
      · by_cases there : binding.operand = operand
        · simp [here, there, Instruction.bindOperand]
        · simp [here, there, Ne.symm there, Instruction.bindOperand]
      · simp [here, Ne.symm here]

theorem write_unbound (sequence : Sequence) (binding : Binding) :
    (sequence.write binding).map Instruction.unbound = sequence.map Instruction.unbound := by
  refine map_modify_of_same (fun line => ?_) sequence binding.position
  have operands : (line.operands.modify binding.operand (Operand.bindTo binding.label)).map
      Operand.unbound = line.operands.map Operand.unbound :=
    map_modify_of_same (fun operand => by cases operand <;> rfl) _ _
  simp only [Instruction.unbound, Instruction.bindOperand, operands]

/-- Sequences that differ in bindings only have the same operands but for bindings. -/
theorem operandAt_unbound {sequence other : Sequence}
    (same : other.map Instruction.unbound = sequence.map Instruction.unbound)
    (position operand : Nat) :
    (other.operandAt position operand).map Operand.unbound =
      (sequence.operandAt position operand).map Operand.unbound := by
  have through : ∀ lines : Sequence, (lines.operandAt position operand).map Operand.unbound =
      ((lines.map Instruction.unbound)[position]?).bind (fun line => line.operands[operand]?) := by
    intro lines
    rw [operandAt, List.getElem?_map]
    cases lines[position]? with
    | none => rfl
    | some line => simp [Instruction.unbound]
  rw [through, through, same]

end Sequence

/-! ## Settled sequences -/

/-- The second sequence is the first with each label operand bound to what is found for it. -/
structure Settled (find : Nat → LabelReference → Option ResolvedLabel)
    (sequence bound : Sequence) : Prop where
  same : bound.map Instruction.unbound = sequence.map Instruction.unbound
  found : ∀ position operand reference held,
    bound.operandAt position operand = some (.label reference held) →
      ∃ label, held = some label ∧ find position reference = some label

/-- The fault of the first label operand, line by line, that nothing is found for, with the
location of its line. -/
inductive FirstUnresolved (find : Nat → LabelReference → Option ResolvedLabel)
    (sequence : Sequence) : Fault → Prop
  | mk {position operand : Nat} {line : Instruction} {reference : LabelReference}
      {held : Option ResolvedLabel} (line_there : sequence[position]? = some line)
      (operand_there : line.operands[operand]? = some (.label reference held))
      (nothing : find position reference = none)
      (first : ∀ earlier before other bound,
        earlier < position ∨ (earlier = position ∧ before < operand) →
        sequence.operandAt earlier before = some (.label other bound) →
        ∃ label, find earlier other = some label) :
      FirstUnresolved find sequence
        { cause := .unresolvedLabel reference, location := line.location, notes := [] }

namespace Settled

variable {find : Nat → LabelReference → Option ResolvedLabel} {sequence bound other : Sequence}

theorem operandAt_eq (first : Settled find sequence bound) (second : Settled find sequence other)
    (position operand : Nat) :
    bound.operandAt position operand = other.operandAt position operand := by
  have alike := Sequence.operandAt_unbound (first.same.trans second.same.symm) position operand
  cases here : bound.operandAt position operand with
  | none =>
      rw [here] at alike
      exact (Option.map_eq_none_iff.mp alike.symm).symm
  | some held =>
      rw [here] at alike
      obtain ⟨held_there, there, same⟩ := Option.map_eq_some_iff.mp alike.symm
      rw [there]
      cases held <;> cases held_there <;> cases same
      · rfl
      · obtain ⟨label, rfl, means⟩ := first.found _ _ _ _ here
        obtain ⟨label_there, rfl, means_there⟩ := second.found _ _ _ _ there
        rw [means] at means_there
        rw [means_there]
      · rfl

/-- A sequence can be settled in one way only. -/
theorem unique (first : Settled find sequence bound) (second : Settled find sequence other) :
    bound = other := by
  have alike := first.same.trans second.same.symm
  -- Line by line: without bindings they are one, and the bindings are what is found for them.
  refine List.ext_getElem? (fun position => ?_)
  have lines := congrArg (fun lines => lines[position]?) alike
  simp only [List.getElem?_map] at lines
  cases here : bound[position]? with
  | none =>
      rw [here] at lines
      exact (Option.map_eq_none_iff.mp lines.symm).symm
  | some line =>
      rw [here] at lines
      obtain ⟨line_there, there, same⟩ := Option.map_eq_some_iff.mp lines.symm
      have operands : line.operands = line_there.operands := by
        refine List.ext_getElem? (fun operand => ?_)
        have here_and_there := first.operandAt_eq second position operand
        simpa [Sequence.operandAt, here, there] using here_and_there
      cases line
      cases line_there
      cases operands
      cases same
      exact there.symm

end Settled

/-! ## The second pass -/

namespace Sequence

theorem writes_unbound (found : List Binding) : ∀ sequence : Sequence,
    (found.foldl write sequence).map Instruction.unbound = sequence.map Instruction.unbound := by
  induction found with
  | nil => intro sequence; rfl
  | cons binding rest ih =>
      intro sequence
      rw [List.foldl_cons, ih, write_unbound]

/-- A label operand behind all writes was written last by one of them, or by none. -/
theorem operandAt_writes {position operand : Nat} {reference : LabelReference}
    {held : Option ResolvedLabel} (found : List Binding) : ∀ sequence : Sequence,
      (found.foldl write sequence).operandAt position operand = some (.label reference held) →
      (∃ binding ∈ found, binding.position = position ∧ binding.operand = operand ∧
        held = some binding.label) ∨
      (sequence.operandAt position operand = some (.label reference held) ∧
        ∀ binding ∈ found, ¬ (binding.position = position ∧ binding.operand = operand)) := by
  induction found with
  | nil => exact fun sequence there => .inr ⟨there, by simp⟩
  | cons binding rest ih =>
      intro sequence there
      rcases ih _ there with ⟨later, member, written⟩ | ⟨before, untouched⟩
      · exact .inl ⟨later, List.mem_cons_of_mem _ member, written⟩
      · rw [operandAt_write] at before
        split at before
        · rename_i here
          obtain ⟨former, _, bound⟩ := Option.map_eq_some_iff.mp before
          refine .inl ⟨binding, List.mem_cons_self, here.1.symm, here.2.symm, ?_⟩
          cases former <;> cases bound
          rfl
        · rename_i elsewhere
          refine .inr ⟨before, List.forall_mem_cons.mpr ⟨fun here => ?_, untouched⟩⟩
          exact elsewhere ⟨here.1.symm, here.2.symm⟩

end Sequence

/-- What was noted is what is found for the operands, and no label operand was left out. -/
structure Notes (find : Nat → LabelReference → Option ResolvedLabel) (sequence : Sequence)
    (found : List Binding) : Prop where
  sound : ∀ binding ∈ found, ∃ reference held,
    sequence.operandAt binding.position binding.operand = some (.label reference held) ∧
      find binding.position reference = some binding.label
  complete : ∀ position operand reference held,
    sequence.operandAt position operand = some (.label reference held) →
      ∃ binding ∈ found, binding.position = position ∧ binding.operand = operand

/-- Writing the notes settles a sequence. -/
theorem Notes.settled {find : Nat → LabelReference → Option ResolvedLabel} {sequence : Sequence}
    {found : List Binding} (notes : Notes find sequence found) :
    Settled find sequence (found.foldl Sequence.write sequence) := by
  have same := Sequence.writes_unbound found sequence
  refine ⟨same, fun position operand reference held there => ?_⟩
  -- The note that was written here was taken for the reference that stood here.
  rcases Sequence.operandAt_writes found sequence there with
    ⟨binding, member, rfl, rfl, written⟩ | ⟨before, untouched⟩
  · obtain ⟨asked, former, source, means⟩ := notes.sound binding member
    have alike := Sequence.operandAt_unbound same binding.position binding.operand
    rw [there, source] at alike
    cases alike
    exact ⟨binding.label, written, means⟩
  · obtain ⟨binding, member, here⟩ := notes.complete position operand reference held before
    exact absurd here (untouched binding member)

/-! ## The first pass -/

/-- A walk that fails has failed at one place, and in no step before. -/
theorem Except.mapM_error_at {α β : Type} {step : α → Except Fault β} {items : List α}
    {fault : Fault} (failed : items.mapM step = .error fault) :
    ∃ (place : Nat) (item : α), items[place]? = some item ∧ step item = .error fault ∧
      ∀ (earlier : Nat) (other : α), earlier < place → items[earlier]? = some other →
        ∃ result, step other = .ok result := by
  induction items with
  | nil => cases failed
  | cons first rest ih =>
      rw [List.mapM_cons] at failed
      cases here : step first with
      | error cause =>
          rw [here] at failed
          cases failed
          exact ⟨0, first, rfl, here, by simp⟩
      | ok result =>
          rw [here] at failed
          obtain ⟨place, item, found, at_place, before⟩ := ih (by
            cases there : rest.mapM step with
            | error cause => simpa [there, bind, Except.bind] using failed
            | ok results => simp [there, bind, Except.bind, pure, Except.pure] at failed)
          refine ⟨place + 1, item, found, at_place, fun earlier other less found_other => ?_⟩
          cases earlier with
          | zero =>
              cases found_other
              exact ⟨result, here⟩
          | succ earlier => exact before earlier other (by omega) found_other

/-- The same along items with their numbers. -/
theorem Except.mapM_zipIdx_error {α β : Type} {step : α × Nat → Except Fault β} {items : List α}
    {fault : Fault} (failed : items.zipIdx.mapM step = .error fault) :
    ∃ (place : Nat) (item : α), items[place]? = some item ∧ step (item, place) = .error fault ∧
      ∀ (earlier : Nat) (other : α), earlier < place → items[earlier]? = some other →
        ∃ result, step (other, earlier) = .ok result := by
  obtain ⟨place, entry, found, at_place, before⟩ := Except.mapM_error_at failed
  simp only [List.getElem?_zipIdx, Nat.zero_add, Option.map_eq_some_iff] at found before
  obtain ⟨item, there, rfl⟩ := found
  exact ⟨place, item, there, at_place, fun earlier other less found_other =>
    before earlier _ less ⟨other, found_other, rfl⟩⟩

/-- Two walks whose steps fail alike fail alike. -/
theorem Except.mapM_unit_congr {α β γ : Type} {first : α → Except Fault β}
    {second : α → Except Fault γ} {items : List α}
    (alike : ∀ item ∈ items, (first item).map (fun _ => ()) = (second item).map (fun _ => ())) :
    (items.mapM first).map (fun _ => ()) = (items.mapM second).map (fun _ => ()) := by
  induction items with
  | nil => rfl
  | cons item rest ih =>
      have here := alike item List.mem_cons_self
      have later := ih (fun other member => alike other (List.mem_cons_of_mem _ member))
      rw [List.mapM_cons, List.mapM_cons]
      cases one : first item <;> cases two : second item <;> rw [one, two] at here
      · exact here
      · cases here
      · cases here
      · cases left : rest.mapM first <;> cases right : rest.mapM second <;>
          rw [left, right] at later <;> exact later

theorem Except.bind_unit {α β : Type} (outcome : Except Fault α) (change : α → β) :
    (outcome >>= fun value => .ok (change value)).map (fun _ => ()) =
      outcome.map (fun _ => ()) := by
  cases outcome <;> rfl

theorem Except.mapM_mapError {α β : Type} (change : Fault → Fault) (step : α → Except Fault β)
    (items : List α) : (items.mapM step).mapError change =
      items.mapM (fun item => (step item).mapError change) := by
  induction items with
  | nil => rfl
  | cons item rest ih =>
      rw [List.mapM_cons, List.mapM_cons, ← ih]
      cases step item with
      | error fault => rfl
      | ok result => cases rest.mapM step <;> rfl

namespace LabelIndex

section Notes

variable {index : LabelIndex} {phase : PhaseKind} {number : Nat} {sequence : Sequence}
  {found : List Binding} {fault : Fault}

/-- Looking an operand up and binding it fail alike. -/
theorem resolveOperand_outcome (line : Instruction) (position : Nat) (entry : Operand × Nat) :
    ((index.resolveOperand phase number sequence position entry.1).mapError
        (fun fault => fault.locate? line.location)).map (fun _ => ()) =
      (index.binding? phase number sequence line position entry).map (fun _ => ()) := by
  obtain ⟨operand, place⟩ := entry
  cases operand with
  | label reference held =>
      rw [resolveOperand, binding?]
      cases index.find? phase number sequence position reference <;> rfl
  | _ => rfl

theorem resolveInstruction_outcome (entry : Instruction × Nat) :
    (index.resolveInstruction phase number sequence entry.2 entry.1).map (fun _ => ()) =
      (index.lineBindings phase number sequence entry).map (fun _ => ()) := by
  obtain ⟨line, position⟩ := entry
  have numbered := List.zipIdx_map_fst 0 line.operands
  rw [resolveInstruction, Except.bind_unit, Except.mapM_mapError, ← numbered, List.mapM_map,
    lineBindings]
  exact Except.mapM_unit_congr (fun entry _ => resolveOperand_outcome line position entry)

/-- The first pass fails where binding operand by operand does. -/
theorem resolve_outcome (index : LabelIndex) (phase : PhaseKind) (number : Nat)
    (sequence : Sequence) : (index.resolve phase number sequence).map (fun _ => ()) =
      (index.bindings phase number sequence).map (fun _ => ()) := by
  rw [resolve, bindings, Except.bind_unit]
  exact Except.mapM_unit_congr (fun entry _ => resolveInstruction_outcome entry)

theorem binding?_label {line : Instruction} {position operand : Nat} {reference : LabelReference}
    {held : Option ResolvedLabel} {noted : Option Binding}
    (looked_up : index.binding? phase number sequence line position
      (.label reference held, operand) = .ok noted) :
    ∃ label, index.find? phase number sequence position reference = some label ∧
      noted = some ⟨position, operand, label⟩ := by
  rw [binding?] at looked_up
  cases means : index.find? phase number sequence position reference with
  | none =>
      rw [means] at looked_up
      cases looked_up
  | some label =>
      rw [means] at looked_up
      cases looked_up
      exact ⟨label, rfl, rfl⟩

/-- Looking up an operand notes what is found for the label that it refers to. -/
theorem binding?_ok {line : Instruction} {position : Nat} {entry : Operand × Nat}
    {binding : Binding}
    (noted : index.binding? phase number sequence line position entry = .ok (some binding)) :
    ∃ reference held, entry.1 = .label reference held ∧ binding.position = position ∧
      binding.operand = entry.2 ∧
      index.find? phase number sequence position reference = some binding.label := by
  obtain ⟨operand, place⟩ := entry
  cases operand with
  | label reference held =>
      obtain ⟨label, means, same⟩ := binding?_label noted
      cases same
      exact ⟨reference, held, rfl, rfl, rfl, means⟩
  | _ => cases noted

theorem binding?_error {line : Instruction} {position : Nat} {entry : Operand × Nat}
    (failed : index.binding? phase number sequence line position entry = .error fault) :
    ∃ reference held, entry.1 = .label reference held ∧
      index.find? phase number sequence position reference = none ∧
      fault = (Fault.of (.unresolvedLabel reference)).locate? line.location := by
  obtain ⟨operand, place⟩ := entry
  cases operand with
  | label reference held =>
      rw [binding?] at failed
      cases means : index.find? phase number sequence position reference with
      | none =>
          rw [means] at failed
          cases failed
          exact ⟨reference, held, rfl, means, rfl⟩
      | some label =>
          rw [means] at failed
          cases failed
  | _ => cases failed

/-- Every operand of a line that was looked up in full means something. -/
theorem find?_of_lineBindings {line : Instruction} {position operand : Nat}
    {reference : LabelReference} {held : Option ResolvedLabel} {noted : List (Option Binding)}
    (looked_up : index.lineBindings phase number sequence (line, position) = .ok noted)
    (there : line.operands[operand]? = some (.label reference held)) :
    ∃ label, index.find? phase number sequence position reference = some label ∧
      some ⟨position, operand, label⟩ ∈ noted := by
  have listed : (Operand.label reference held, operand) ∈ line.operands.zipIdx :=
    List.mem_zipIdx_iff_getElem?.mpr there
  obtain ⟨entry, member, step⟩ :=
    Paired.exists_partner (Except.mapM_ok_iff.mp looked_up).flip _ listed
  obtain ⟨label, means, rfl⟩ := binding?_label step
  exact ⟨label, means, member⟩

/-- The first pass notes what is found, for every label operand. -/
theorem bindings_notes (collected : index.bindings phase number sequence = .ok found) :
    Notes (index.find? phase number sequence) sequence found := by
  obtain ⟨lines, walked, made⟩ := Except.bind_ok_iff.mp collected
  cases made
  have paired := Except.mapM_ok_iff.mp walked
  constructor
  · intro binding member
    obtain ⟨part, listed, inside⟩ := List.mem_flatten.mp
      (by simpa using member : some binding ∈ lines.flatten)
    obtain ⟨⟨line, position⟩, line_there, looked_up⟩ := Paired.exists_partner paired part listed
    obtain ⟨⟨operand, place⟩, operand_there, noted⟩ :=
      Paired.exists_partner (Except.mapM_ok_iff.mp looked_up) _ inside
    obtain ⟨reference, held, rfl, rfl, rfl, means⟩ := binding?_ok noted
    rw [List.mem_zipIdx_iff_getElem?] at line_there operand_there
    exact ⟨reference, held, by simp [Sequence.operandAt, line_there, operand_there], means⟩
  · intro position operand reference held there
    obtain ⟨line, line_there, operand_there⟩ := Option.bind_eq_some_iff.mp there
    have numbered : (line, position) ∈ sequence.zipIdx :=
      List.mem_zipIdx_iff_getElem?.mpr line_there
    obtain ⟨part, listed, looked_up⟩ := Paired.exists_partner paired.flip _ numbered
    obtain ⟨label, _, inside⟩ := find?_of_lineBindings looked_up operand_there
    refine ⟨⟨position, operand, label⟩, ?_, rfl, rfl⟩
    simpa using List.mem_flatten.mpr ⟨part, listed, inside⟩

/-- The first pass fails at the first operand that means nothing. -/
theorem bindings_error (failed : index.bindings phase number sequence = .error fault) :
    FirstUnresolved (index.find? phase number sequence) sequence fault := by
  obtain ⟨position, line, line_there, in_line, lines_before⟩ :=
    Except.mapM_zipIdx_error (Except.bind_ok_error_iff.mp failed)
  obtain ⟨operand, held, operand_there, at_operand, operands_before⟩ :=
    Except.mapM_zipIdx_error in_line
  obtain ⟨reference, bound, rfl, nothing, located⟩ := binding?_error at_operand
  have reported : fault =
      { cause := .unresolvedLabel reference, location := line.location, notes := [] } := by
    rw [located]
    cases line.location <;> rfl
  rw [reported]
  refine .mk line_there operand_there nothing ?_
  intro earlier before other formerly first there
  obtain ⟨line_before, line_found, operand_found⟩ := Option.bind_eq_some_iff.mp there
  rcases first with line_first | ⟨rfl, operand_first⟩
  · obtain ⟨noted, looked_up⟩ := lines_before earlier line_before line_first line_found
    obtain ⟨label, means, _⟩ := find?_of_lineBindings looked_up operand_found
    exact ⟨label, means⟩
  · rw [line_there] at line_found
    cases line_found
    obtain ⟨noted, looked_up⟩ := operands_before before _ operand_first operand_found
    obtain ⟨label, means, _⟩ := binding?_label looked_up
    exact ⟨label, means⟩

end Notes

/-! ## Both passes -/

section Whole

variable (index : LabelIndex) (phase : PhaseKind) (number : Nat) (sequence : Sequence)

theorem forM_write (found : List Binding) : ∀ sequence : Sequence,
    (found.forM (fun binding => modify (·.write binding)) : Binder Unit) sequence =
      (.ok (), found.foldl Sequence.write sequence) := by
  induction found with
  | nil => intro sequence; rfl
  | cons binding rest ih => exact fun sequence => ih (sequence.write binding)

theorem bindInPlace_eq : index.bindInPlace phase number sequence =
    match index.bindings phase number sequence with
    | .ok found => (.ok (), found.foldl Sequence.write sequence)
    | .error fault => (.error fault, sequence) := by
  rw [bindInPlace, Computation.bind_run, Computation.get_run]
  dsimp only
  rw [Computation.bind_run]
  cases index.bindings phase number sequence with
  | error fault => rfl
  | ok found => exact forM_write found sequence

variable {index phase number sequence}

/-- What a sequence is bound to plays no part in what is found in it. -/
theorem find?_congr (index : LabelIndex) (phase : PhaseKind) (number : Nat)
    {sequence other : Sequence}
    (same : other.map Instruction.unbound = sequence.map Instruction.unbound) :
    index.find? phase number other = index.find? phase number sequence := by
  have declared : declarations other = declarations sequence := by
    rw [← declarations_unbound, same, declarations_unbound]
  funext position reference
  simp only [find?, local?, visible, declared]

/-- A sequence that is settled is settled by itself, and in it every label operand means
something. -/
theorem bindings_of_settled {bound : Sequence}
    (settled : Settled (index.find? phase number sequence) sequence bound) :
    ∃ found, index.bindings phase number bound = .ok found ∧
      found.foldl Sequence.write bound = bound := by
  have same := find?_congr index phase number settled.same
  cases collected : index.bindings phase number bound with
  | error fault =>
      cases bindings_error collected with
      | mk line_there operand_there nothing _ =>
          rw [same] at nothing
          obtain ⟨label, _, means⟩ := settled.found _ _ _ _
            (Option.bind_eq_some_iff.mpr ⟨_, line_there, operand_there⟩)
          rw [nothing] at means
          cases means
  | ok found =>
      have again := (bindings_notes collected).settled
      rw [same] at again
      exact ⟨found, rfl, again.unique ⟨rfl, settled.found⟩⟩

/-- Binding operand by operand settles a sequence, too. -/
theorem resolve_settled {bound : Sequence}
    (resolved : index.resolve phase number sequence = .ok bound) :
    Settled (index.find? phase number sequence) sequence bound := by
  obtain ⟨same, meant⟩ := resolve_ok resolved
  refine ⟨same, fun position operand reference held there => ?_⟩
  obtain ⟨line, line_there, operand_there⟩ := Option.bind_eq_some_iff.mp there
  exact meant position line reference held line_there (List.mem_of_getElem? operand_there)

end Whole

/-- Binding in place comes to what binding operand by operand comes to.  It changes nothing but
what label operands are bound to, and binds all of them or, at the first that means nothing, none;
a second run on what the first has left comes to the same as the first. -/
theorem bindInPlace_atomic (index : LabelIndex) (phase : PhaseKind) (number : Nat)
    (sequence : Sequence) :
    let run := index.bindInPlace phase number sequence
    let find := index.find? phase number sequence
    index.resolve phase number sequence = run.1.map (fun _ => run.2) ∧
      ((run.1 = .ok () ∧ Settled find sequence run.2) ∨
        (∃ fault, FirstUnresolved find sequence fault ∧ run = (.error fault, sequence))) ∧
      index.bindInPlace phase number run.2 = run := by
  intro run find
  -- Both ways fail alike; where they succeed, both settle the sequence, and there is only one way.
  have ran : run = _ := bindInPlace_eq index phase number sequence
  have outcome := resolve_outcome index phase number sequence
  cases collected : index.bindings phase number sequence with
  | error fault =>
      rw [collected] at ran outcome
      have failed : index.resolve phase number sequence = .error fault := by
        cases resolved : index.resolve phase number sequence <;> rw [resolved] at outcome <;>
          cases outcome
        rfl
      rw [ran]
      exact ⟨failed, .inr ⟨fault, bindings_error collected, rfl⟩, ran⟩
  | ok found =>
      rw [collected] at ran outcome
      have settled := (bindings_notes collected).settled
      obtain ⟨again, collected_again, unchanged⟩ := bindings_of_settled settled
      have succeeded : index.resolve phase number sequence =
          .ok (found.foldl Sequence.write sequence) := by
        cases resolved : index.resolve phase number sequence with
        | error fault =>
            rw [resolved] at outcome
            cases outcome
        | ok bound => rw [(resolve_settled resolved).unique settled]
      rw [ran]
      refine ⟨succeeded, .inl ⟨rfl, settled⟩, ?_⟩
      rw [bindInPlace_eq, collected_again]
      exact congrArg (Prod.mk _) unchanged

end LabelIndex
end TestProgram
