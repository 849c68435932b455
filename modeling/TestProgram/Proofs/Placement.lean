/-
# TestProgram.Proofs.Placement -- what becomes of each label of a stream

A label of a stream is printed or gives way, and the labels before it decide which
(`placed?`).  So the lines of a finalized sequence can be told from the labels of its calls
alone: line by line (`finalize_line`), which says where a label stands, and all at once
(`finalize_placed`), which says what is left of a name.  No label is made anew, and a number
is printed as it is (`placed?_label`, `placed?_numeric`).
-/
import TestProgram.Proofs.LabelNames

namespace TestProgram.LabelNames

set_option autoImplicit false

/-- What becomes of a label behind some others of its stream: the text it is printed with, or
nothing when it gives way. -/
def placed? (strong : List String) (before : List Label) (label : Label) : Option PlacedLabel :=
  match label.role with
  | .numeric => some ⟨label, label.name.render⟩
  | .weak name =>
      if name ∈ strong ∨ name ∈ weakNames before then none else some ⟨label, name⟩
  | .global name => some ⟨label, name⟩
  | .plain name => some ⟨label, Ledger.suffixed name ((plainNames before).count name)⟩

/-- What is left of some labels behind others. -/
def placedFrom (strong : List String) : List Label → List Label → List PlacedLabel
  | _, [] => []
  | before, label :: rest =>
      (placed? strong before label).toList ++ placedFrom strong (before ++ [label]) rest

section Placed

variable {strong : List String} {before : List Label} {label : Label} {placed : PlacedLabel}

theorem placed?_label (kept : placed? strong before label = some placed) :
    placed.label = label := by
  unfold placed? at kept
  split at kept
  · cases kept
    rfl
  · split at kept
    · cases kept
    · cases kept
      rfl
  · cases kept
    rfl
  · cases kept
    rfl

/-- A numeric label is printed with its number. -/
theorem placed?_numeric {slot : NumericSlot} (numbered : label.name = .numeric slot)
    (kept : placed? strong before label = some placed) : placed.rendered = toString slot.val := by
  have role : label.role = .numeric := by rw [Label.role, numbered]
  rw [placed?, role] at kept
  cases kept
  rw [numbered]
  rfl

end Placed

/-! ## Ledgers -/

theorem place_placed {strong : List String} {ledger : Ledger} {before : List Label}
    (follows : Follows strong ledger before) (label : Label) :
    (ledger.place strong label).1 = placed? strong before label := by
  rw [Ledger.place_eq, placed?]
  cases label.role with
  | numeric => rfl
  | global name => rfl
  | plain name => simp only [follows.counts]
  | weak name =>
      by_cases taken : name ∈ strong
      · simp [taken]
      · simp only [taken, false_or, follows.weak name taken]
        split <;> rfl

theorem placeAll_placed {strong : List String} (labels : List Label) :
    ∀ {ledger : Ledger} {before : List Label}, Follows strong ledger before →
      (ledger.placeAll strong labels).1 = placedFrom strong before labels := by
  induction labels with
  | nil => intro ledger before _; rfl
  | cons label rest ih =>
      intro ledger before follows
      rw [(Ledger.placeAll_cons strong ledger label rest).1, placedFrom, place_placed follows,
        ih (place_follows follows label).2]

theorem placedFrom_append (strong : List String) (first : List Label) :
    ∀ before second, placedFrom strong before (first ++ second) =
      placedFrom strong before first ++ placedFrom strong (before ++ first) second := by
  induction first with
  | nil => intro before second; simp [placedFrom]
  | cons label rest ih => intro before second; simp [placedFrom, ih]

/-- Each call declares what is left of its labels behind those of the calls before it. -/
theorem placeCalls_line {strong : List String} (calls : List Call) :
    ∀ {ledger : Ledger} {before : List Label}, Follows strong ledger before →
      ∀ position : Nat, (ledger.placeCalls strong calls)[position]? =
        (calls[position]?).map (fun call =>
          placedFrom strong (before ++ (calls.take position).flatMap Call.labels) call.labels) := by
  induction calls with
  | nil => intro ledger before _ position; rfl
  | cons call rest ih =>
      intro ledger before follows position
      have follows_on := (placeAll_follows call.labels follows).2
      cases position with
      | zero => simp [Ledger.placeCalls, placeAll_placed call.labels follows]
      | succ position => simp [Ledger.placeCalls, ih follows_on position]

theorem placeCalls_flatten {strong : List String} (calls : List Call) :
    ∀ {ledger : Ledger} {before : List Label}, Follows strong ledger before →
      (ledger.placeCalls strong calls).flatten =
        placedFrom strong before (calls.flatMap Call.labels) := by
  induction calls with
  | nil => intro ledger before _; rfl
  | cons call rest ih =>
      intro ledger before follows
      have follows_on := (placeAll_follows call.labels follows).2
      rw [Ledger.placeCalls, List.flatten_cons, ih follows_on, List.flatMap_cons,
        placedFrom_append, placeAll_placed call.labels follows]

/-! ## Finalized sequences -/

theorem mem_placedFrom {strong : List String} {placed : PlacedLabel} (labels : List Label) :
    ∀ before, placed ∈ placedFrom strong before labels ↔
      ∃ earlier label later, labels = earlier ++ label :: later ∧
        placed? strong (before ++ earlier) label = some placed := by
  induction labels with
  | nil => simp [placedFrom]
  | cons first rest ih =>
      intro before
      rw [placedFrom, List.mem_append, ih, Option.mem_toList]
      constructor
      · rintro (here | ⟨earlier, label, later, rfl, there⟩)
        · exact ⟨[], first, rest, rfl, by simpa using here⟩
        · exact ⟨first :: earlier, label, later, rfl, by simpa using there⟩
      · rintro ⟨earlier, label, later, cut, there⟩
        cases earlier with
        | nil =>
            obtain ⟨rfl, rfl⟩ := List.cons.inj cut
            exact .inl (by simpa using there)
        | cons other earlier =>
            obtain ⟨rfl, rfl⟩ := List.cons.inj cut
            exact .inr ⟨earlier, label, later, rfl, by simpa using there⟩

section Finalized

variable {stream : Stream Call} {engine after : Engine} {sequence : Sequence}
  (run : finalize stream engine = (.ok sequence, after))

include run

/-- The labels of the line at a place, by those of the call there and of the calls before. -/
theorem finalize_line (position : Nat) :
    (sequence[position]?).map Instruction.labels =
      (stream.emissions[position]?).map (fun call =>
        placedFrom (strongNames stream.emissions)
          ((stream.emissions.take position).flatMap Call.labels) call.labels) := by
  rw [← List.getElem?_map, finalize_labels run, placeCalls_line _ (follows_empty _)]
  simp only [List.nil_append]

theorem finalize_placed :
    sequence.flatMap Instruction.labels =
      placedFrom (strongNames stream.emissions) [] (stream.emissions.flatMap Call.labels) := by
  rw [List.flatMap_def, finalize_labels run, placeCalls_flatten _ (follows_empty _)]

/-- A line declares a label when its call does and the label does not give way. -/
theorem mem_declarations_finalized {place : Nat} {placed : PlacedLabel} :
    (place, placed) ∈ LabelIndex.declarations sequence ↔
      ∃ call earlier label later, stream.emissions[place]? = some call ∧
        call.labels = earlier ++ label :: later ∧
        placed? (strongNames stream.emissions)
          ((stream.emissions.take place).flatMap Call.labels ++ earlier) label = some placed := by
  have line := finalize_line run place
  rw [LabelIndex.mem_declarations]
  constructor
  · rintro ⟨found, here, held⟩
    rw [here] at line
    obtain ⟨call, there, labels⟩ := Option.map_eq_some_iff.mp line.symm
    rw [← labels, mem_placedFrom] at held
    obtain ⟨earlier, label, later, cut, kept⟩ := held
    exact ⟨call, earlier, label, later, there, cut, kept⟩
  · rintro ⟨call, earlier, label, later, there, cut, kept⟩
    rw [there] at line
    obtain ⟨found, here, labels⟩ := Option.map_eq_some_iff.mp line
    refine ⟨found, here, ?_⟩
    rw [labels, mem_placedFrom]
    exact ⟨earlier, label, later, cut, kept⟩

end Finalized

end TestProgram.LabelNames
