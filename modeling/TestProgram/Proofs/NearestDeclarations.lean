/-
# TestProgram.Proofs.NearestDeclarations -- the declaration that a reference means

What a reference may mean in its own sequence is a set of places: those of the lines that have a
label of its name or number, declared in a block around the reference's (`placesSeen`).  Three
rules choose one of them.  A name means the nearest place, and of two equally near the one that
is not behind the reference (`IsNearest`); a number looking forward means the least place behind
it, and one looking back the greatest that is not.

The search goes through one list of declarations for all three.  The list is in the order of the
places, and its stretch at a place is what the reference sees there (`filter_visible`), so that a
rule about the list is one about the set, and the first or last entry of a stretch is the first or
last such label of a line.  `reference_means_nearest` puts the rules together, with what is left
for a reference that sees nothing; it is what label operands are bound to (`resolve_ok`).
-/
import TestProgram.Proofs.BlockPaths
import TestProgram.Proofs.HushedLabels
import Mathlib.Order.Bounds.Basic

namespace TestProgram

set_option autoImplicit false

/-! ## What a reference sees -/

namespace LabelReference

/-- The name or the number that is asked for. -/
def asked : LabelReference → LabelName
  | .named name _ => .named name
  | .numeric slot _ _ => .numeric slot

/-- The label has the name or the number, in a block around that of the reference. -/
def Sees (reference : LabelReference) (placed : PlacedLabel) : Prop :=
  placed.label.name = reference.asked ∧ placed.label.scope.path <+: reference.scope.path

instance (reference : LabelReference) (placed : PlacedLabel) :
    Decidable (reference.Sees placed) :=
  inferInstanceAs (Decidable (_ ∧ _))

end LabelReference

namespace Sequence

/-- The labels of the line at a place that the reference sees, in their order. -/
def seenAt (sequence : Sequence) (reference : LabelReference) (place : Nat) : List PlacedLabel :=
  ((sequence[place]?).elim [] Instruction.labels).filter (fun placed => reference.Sees placed)

/-- The places at which the reference sees a label. -/
def placesSeen (sequence : Sequence) (reference : LabelReference) : Set Nat :=
  {place | sequence.seenAt reference place ≠ []}

end Sequence

/-- No place of the set is nearer to the position, and one that is as near is behind it. -/
structure IsNearest (position : Nat) (places : Set Nat) (place : Nat) : Prop where
  member : place ∈ places
  nearest : ∀ other ∈ places, ((place : Int) - position).natAbs ≤ ((other : Int) - position).natAbs
  not_behind : ∀ other ∈ places, other ≠ place →
    ((other : Int) - position).natAbs = ((place : Int) - position).natAbs → place ≤ position

/-- The rule leaves no choice: of two places that are as near one is not behind the position. -/
theorem IsNearest.unique {position place other : Nat} {places : Set Nat}
    (here : IsNearest position places place) (there : IsNearest position places other) :
    place = other := by
  by_contra differ
  have as_near := Nat.le_antisymm (here.nearest other there.member)
    (there.nearest place here.member)
  have place_before := here.not_behind other there.member (Ne.symm differ) as_near.symm
  have other_before := there.not_behind place here.member differ as_near
  omega

namespace LabelIndex

variable {sequence : Sequence} {reference : LabelReference} {position place : Nat}
  {placed : PlacedLabel}

theorem visible_eq_filter (reference : LabelReference) (sequence : Sequence) :
    visible reference sequence =
      (declarations sequence).filter (fun entry => reference.Sees entry.2) := by
  refine List.filter_congr (fun entry _ => ?_)
  rw [Bool.eq_iff_iff, Bool.and_eq_true, BlockId.encloses_iff, decide_eq_true_iff,
    LabelReference.Sees, and_comm]
  cases reference <;> simp [LabelReference.asked]

theorem filter_declarations (sequence : Sequence) : ∀ place : Nat,
    (declarations sequence).filter (fun entry => entry.1 == place) =
      ((sequence[place]?).elim [] Instruction.labels).map (place, ·) := by
  induction sequence with
  | nil => intro place; rfl
  | cons line rest ih =>
      intro place
      rw [declarations_cons, List.filter_append, List.filter_map, List.filter_map]
      cases place with
      | zero => simp [Function.comp_def]
      | succ place =>
          have shifted := congrArg (List.map (fun entry => (entry.1 + 1, entry.2))) (ih place)
          simpa [Function.comp_def] using shifted

/-- Of the declarations in sight, those at a place are what the reference sees there. -/
theorem filter_visible (sequence : Sequence) (reference : LabelReference) (place : Nat) :
    (visible reference sequence).filter (fun entry => entry.1 == place) =
      (sequence.seenAt reference place).map (place, ·) := by
  rw [visible_eq_filter, List.filter_comm, filter_declarations, List.filter_map]
  rfl

theorem mem_visible_iff :
    (place, placed) ∈ visible reference sequence ↔ placed ∈ sequence.seenAt reference place := by
  have there := filter_visible sequence reference place
  have here := congrArg (fun entries => (place, placed) ∈ entries) there
  simpa using here

theorem mem_placesSeen :
    place ∈ sequence.placesSeen reference ↔
      ∃ entry ∈ visible reference sequence, entry.1 = place := by
  constructor
  · intro seen
    obtain ⟨placed, member⟩ := List.exists_mem_of_ne_nil _ seen
    exact ⟨(place, placed), mem_visible_iff.mpr member, rfl⟩
  · rintro ⟨⟨_, placed⟩, seen, rfl⟩
    exact List.ne_nil_of_mem (mem_visible_iff.mp seen)

/-- There is no place of a kind where the reference sees a label if no declaration in sight stands
at one. -/
theorem placesSeen_sep_eq_empty {wanted : Nat → Prop}
    (unwanted : ∀ entry ∈ visible reference sequence, ¬ wanted entry.1) :
    {place ∈ sequence.placesSeen reference | wanted place} = ∅ := by
  rw [Set.eq_empty_iff_forall_notMem]
  rintro place ⟨seen, is_wanted⟩
  obtain ⟨entry, listed, rfl⟩ := mem_placesSeen.mp seen
  exact unwanted entry listed is_wanted

/-! ## Three rules -/

section Rules

variable {found : Nat × PlacedLabel}

theorem visible_inOrder (reference : LabelReference) (sequence : Sequence) :
    InOrder (visible reference sequence) :=
  (declarations_inOrder sequence).filter _

/-- The first declaration in sight at a place is the first label seen there. -/
theorem head?_seenAt
    (first : (visible reference sequence).find? (fun entry => entry.1 == found.1) = some found) :
    (sequence.seenAt reference found.1).head? = some found.2 := by
  rw [← List.head?_filter, filter_visible, List.head?_map, Option.map_eq_some_iff] at first
  obtain ⟨placed, head, same⟩ := first
  rw [head, ← same]

theorem nearest_isNearest
    (chosen : nearest position (visible reference sequence) = some found) :
    IsNearest position (sequence.placesSeen reference) found.1 ∧
      (sequence.seenAt reference found.1).head? = some found.2 := by
  -- Two places are equally near only on the two sides of the position.
  have not_nearer := nearest_not_nearer chosen
  simp only [nearer_iff, distance] at not_nearer
  refine ⟨⟨mem_placesSeen.mpr ⟨found, nearest_mem chosen, rfl⟩, ?_, ?_⟩,
    head?_seenAt (nearest_first chosen)⟩
  · intro other seen
    obtain ⟨entry, member, rfl⟩ := mem_placesSeen.mp seen
    have not_here := not_nearer entry member
    omega
  · intro other seen differs tie
    obtain ⟨entry, member, rfl⟩ := mem_placesSeen.mp seen
    have not_here := not_nearer entry member
    omega

theorem next_isLeast
    (chosen : (visible reference sequence).find? (fun entry => decide (position < entry.1)) =
      some found) :
    IsLeast {place ∈ sequence.placesSeen reference | position < place} found.1 ∧
      (sequence.seenAt reference found.1).head? = some found.2 := by
  obtain ⟨member, ahead, not_passed⟩ := next?_forward (visible_inOrder reference sequence) chosen
  refine ⟨⟨⟨mem_placesSeen.mpr ⟨found, member, rfl⟩, ahead⟩, ?_⟩, head?_seenAt ?_⟩
  · rintro other ⟨seen, also_ahead⟩
    obtain ⟨entry, listed, rfl⟩ := mem_placesSeen.mp seen
    exact Nat.le_of_not_lt (fun closer => not_passed entry listed ⟨also_ahead, closer⟩)
  · obtain ⟨_, before, behind, cut, skipped⟩ := List.find?_eq_some_iff_append.mp chosen
    refine List.find?_eq_some_iff_append.mpr ⟨by simp, before, behind, cut, fun other earlier => ?_⟩
    have not_ahead := skipped other earlier
    simp only [Bool.not_eq_true', decide_eq_false_iff_not] at not_ahead
    simp only [Bool.not_eq_true', beq_eq_false_iff_ne]
    omega

/-- What is seen up to a position ends with what is seen at the last of the places. -/
theorem getLast?_seenAt (up_to : found.1 ≤ position)
    (last : ((visible reference sequence).filter
      (fun entry => decide (entry.1 ≤ position))).getLast? = some found) :
    (sequence.seenAt reference found.1).getLast? = some found.2 := by
  obtain ⟨before, cut⟩ := List.getLast?_eq_some_iff.mp last
  have narrowed := congrArg (List.filter (fun entry => entry.1 == found.1)) cut
  have at_place : ∀ entry ∈ visible reference sequence,
      (entry.1 == found.1 && decide (entry.1 ≤ position)) = (entry.1 == found.1) := by
    intro entry _
    by_cases same : entry.1 = found.1 <;> simp [same, up_to]
  rw [List.filter_filter, List.filter_congr at_place, filter_visible,
    List.filter_append] at narrowed
  have ends : ((sequence.seenAt reference found.1).map (found.1, ·)).getLast? = some found := by
    rw [narrowed]
    simp
  obtain ⟨placed, held, same⟩ := Option.map_eq_some_iff.mp (List.getLast?_map .. ▸ ends)
  rw [held, ← same]

theorem last_isGreatest
    (chosen : ((visible reference sequence).filter
      (fun entry => decide (entry.1 ≤ position))).getLast? = some found) :
    IsGreatest {place ∈ sequence.placesSeen reference | place ≤ position} found.1 ∧
      (sequence.seenAt reference found.1).getLast? = some found.2 := by
  obtain ⟨member, up_to, not_passed⟩ := next?_back (visible_inOrder reference sequence) chosen
  refine ⟨⟨⟨mem_placesSeen.mpr ⟨found, member, rfl⟩, up_to⟩, ?_⟩, getLast?_seenAt up_to chosen⟩
  rintro other ⟨seen, also_up_to⟩
  obtain ⟨entry, listed, rfl⟩ := mem_placesSeen.mp seen
  exact Nat.le_of_not_lt (fun closer => not_passed entry listed ⟨closer, also_up_to⟩)

end Rules

/-! ## The meaning of a reference -/

theorem find?_of_local? (index : LabelIndex) (phase : PhaseKind) (number : Nat)
    {found : Nat × PlacedLabel} (chosen : local? sequence position reference = some found) :
    index.find? phase number sequence position reference =
      some ⟨found.2.rendered, .code phase number found.1⟩ := by
  rw [find?, chosen]

theorem find?_of_nothing (index : LabelIndex) (phase : PhaseKind) (number : Nat)
    (nothing : local? sequence position reference = none) :
    index.find? phase number sequence position reference = index.outer? reference := by
  rw [find?, nothing]

theorem nearest_eq_none (nothing : nearest position (visible reference sequence) = none) :
    sequence.placesSeen reference = ∅ := by
  rw [Set.eq_empty_iff_forall_notMem]
  intro place seen
  obtain ⟨entry, listed, rfl⟩ := mem_placesSeen.mp seen
  obtain ⟨found, chosen⟩ := exists_nearest position listed
  rw [nothing] at chosen
  cases chosen

theorem next_eq_none
    (nothing : (visible reference sequence).find?
      (fun entry => decide (position < entry.1)) = none) :
    {place ∈ sequence.placesSeen reference | position < place} = ∅ := by
  refine placesSeen_sep_eq_empty (fun entry listed ahead => ?_)
  exact List.find?_eq_none.mp nothing entry listed (decide_eq_true ahead)

theorem last_eq_none
    (nothing : ((visible reference sequence).filter
      (fun entry => decide (entry.1 ≤ position))).getLast? = none) :
    {place ∈ sequence.placesSeen reference | place ≤ position} = ∅ := by
  refine placesSeen_sep_eq_empty (fun entry listed up_to => ?_)
  have none_left := List.filter_eq_nil_iff.mp (List.getLast?_eq_none_iff.mp nothing)
  exact none_left entry listed (decide_eq_true up_to)

/-- A name means the nearest declaration that it sees, the one before it where two are equally
near, and of several labels of one line the first; only if it sees none, it means what the tables
of global labels and of data labels hold.  A number means the next or the last declaration that
it sees, and nothing if there is none that way. -/
theorem reference_means_nearest (index : LabelIndex) (phase : PhaseKind) (number : Nat)
    (sequence : Sequence) (position : Nat) :
    (∀ name scope,
      let reference := LabelReference.named name scope
      let found := index.find? phase number sequence position reference
      (∃ place placed, IsNearest position (sequence.placesSeen reference) place ∧
        (sequence.seenAt reference place).head? = some placed ∧
        found = some ⟨placed.rendered, .code phase number place⟩) ∨
      (sequence.placesSeen reference = ∅ ∧
        found = ((index.globals.find? name).or (index.data.find? name)).map (⟨name, ·⟩))) ∧
    (∀ slot scope,
      let reference := LabelReference.numeric slot true scope
      let found := index.find? phase number sequence position reference
      (∃ place placed,
        IsLeast {place ∈ sequence.placesSeen reference | position < place} place ∧
        (sequence.seenAt reference place).head? = some placed ∧
        found = some ⟨placed.rendered, .code phase number place⟩) ∨
      ({place ∈ sequence.placesSeen reference | position < place} = ∅ ∧ found = none)) ∧
    (∀ slot scope,
      let reference := LabelReference.numeric slot false scope
      let found := index.find? phase number sequence position reference
      (∃ place placed,
        IsGreatest {place ∈ sequence.placesSeen reference | place ≤ position} place ∧
        (sequence.seenAt reference place).getLast? = some placed ∧
        found = some ⟨placed.rendered, .code phase number place⟩) ∨
      ({place ∈ sequence.placesSeen reference | place ≤ position} = ∅ ∧ found = none)) := by
  refine ⟨fun name scope => ?_, fun slot scope => ?_, fun slot scope => ?_⟩
  · intro reference found
    cases chosen : nearest position (visible reference sequence) with
    | some entry =>
        obtain ⟨is_nearest, first⟩ := nearest_isNearest chosen
        refine .inl ⟨entry.1, entry.2, is_nearest, first, ?_⟩
        exact find?_of_local? index phase number chosen
    | none => exact .inr ⟨nearest_eq_none chosen, find?_of_nothing index phase number chosen⟩
  · intro reference found
    cases chosen : (visible reference sequence).find?
        (fun entry => decide (position < entry.1)) with
    | some entry =>
        obtain ⟨is_least, first⟩ := next_isLeast chosen
        refine .inl ⟨entry.1, entry.2, is_least, first, ?_⟩
        exact find?_of_local? index phase number chosen
    | none => exact .inr ⟨next_eq_none chosen, find?_of_nothing index phase number chosen⟩
  · intro reference found
    cases chosen : ((visible reference sequence).filter
        (fun entry => decide (entry.1 ≤ position))).getLast? with
    | some entry =>
        obtain ⟨is_greatest, last⟩ := last_isGreatest chosen
        refine .inl ⟨entry.1, entry.2, is_greatest, last, ?_⟩
        exact find?_of_local? index phase number chosen
    | none => exact .inr ⟨last_eq_none chosen, find?_of_nothing index phase number chosen⟩

end LabelIndex
end TestProgram
