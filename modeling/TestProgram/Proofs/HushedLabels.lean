/-
# TestProgram.Proofs.HushedLabels -- references when lines of texts and comments are gone

Lines that have texts and comments only declare nothing and refer to nothing, so without them a
reference sees the same declarations, each moved up by the lines that are gone before it
(`LabelIndex.declarations_thinned`).  The next and the last of them stay what they were.  Of
those before and behind a reference the nearest may change, but only if such a line stands
between the two (`Torn`).  So each reference means the same place among the lines left, or is
torn (`LabelIndex.find?_thinned`).

Places are compared by a relation of targets that the index knows nothing of; it has to hold
of the places of lines that are kept, and of the targets in two indices, entry by entry
(`LabelIndex.Alike`).
-/
import TestProgram.Proofs.HushedStreams
import TestProgram.Proofs.NumericReferences
import TestProgram.Proofs.Repetition
import Mathlib.Data.List.Find

namespace TestProgram

set_option autoImplicit false

open Strategy (Agree insert_alike)

/-! ## Declarations -/

/-- How many executable instructions stand before a position. -/
def Sequence.landing (lines : Sequence) (position : Nat) : Nat :=
  (lines.take position).countP Instruction.isExecutable

section Lines

variable {kept : List Bool} {lines others : Sequence}

theorem Instruction.isBare_iff {line : Instruction} :
    line.isBare = true ↔
      line.name = "" ∧ line.labels = [] ∧ line.operands = [] ∧ line.outputs ≠ [] := by
  simp [Instruction.isBare, and_assoc]

/-- Lines that are gone were not executable. -/
theorem landing_thinned (thinned : ThinnedLines kept lines others) : ∀ position : Nat,
    others.landing (place kept position) = lines.landing position := by
  induction thinned with
  | nil => intro position; simp [Sequence.landing]
  | keep related _ ih =>
      intro position
      subst related
      cases position with
      | zero => rfl
      | succ position =>
          have later := ih position
          simp only [Sequence.landing] at later
          rw [place_kept, Sequence.landing, Sequence.landing, List.take_succ_cons,
            List.take_succ_cons, List.countP_cons, List.countP_cons, later]
          rfl
  | drop left_out _ ih =>
      intro position
      cases position with
      | zero => rfl
      | succ position =>
          have later := ih position
          have nameless := (Instruction.isBare_iff.mp left_out).1
          simp only [Sequence.landing] at later
          rw [place_dropped, Sequence.landing, Sequence.landing, List.take_succ_cons,
            List.countP_cons, later]
          simp [Instruction.isExecutable, nameless]

namespace LabelIndex

/-- A declaration moved up by the lines that are gone before it. -/
def moved (kept : List Bool) (entry : Nat × PlacedLabel) : Nat × PlacedLabel :=
  (place kept entry.1, entry.2)

theorem declarations_cons (line : Instruction) (rest : Sequence) :
    declarations (line :: rest) = line.labels.map (0, ·) ++
      (declarations rest).map (fun entry => (entry.1 + 1, entry.2)) := by
  rw [declarations, List.zipIdx_cons', List.flatMap_cons, List.flatMap_map, declarations,
    List.map_flatMap]
  simp [Function.comp_def]

theorem declarations_thinned (thinned : ThinnedLines kept lines others) :
    declarations others = (declarations lines).map (moved kept) := by
  induction thinned with
  | nil => rfl
  | keep related _ ih =>
      subst related
      rw [declarations_cons, declarations_cons, ih, List.map_append, List.map_map, List.map_map,
        List.map_map]
      congr 1
      simp [moved, Function.comp_def]
  | drop left_out _ ih =>
      obtain ⟨_, unlabelled, _, _⟩ := Instruction.isBare_iff.mp left_out
      rw [declarations_cons, ih, unlabelled, List.map_nil, List.nil_append, List.map_map]
      simp [moved, Function.comp_def]

theorem visible_thinned (thinned : ThinnedLines kept lines others) (reference : LabelReference) :
    visible reference others = (visible reference lines).map (moved kept) := by
  rw [visible, visible, declarations_thinned thinned, List.filter_map]
  rfl

/-- A line that declares something is kept. -/
theorem kept_of_visible (thinned : ThinnedLines kept lines others) {reference : LabelReference}
    {entry : Nat × PlacedLabel} (seen : entry ∈ visible reference lines) :
    kept[entry.1]? = some true := by
  obtain ⟨line, found, held⟩ := mem_declarations.mp (List.mem_filter.mp seen).1
  refine thinned.kept_of found ?_
  rw [Bool.eq_false_iff]
  intro bare
  obtain ⟨_, unlabelled, _, _⟩ := Instruction.isBare_iff.mp bare
  rw [unlabelled] at held
  cases held

/-! ## What a reference sees -/

/-- A search for the next or the last entry does not notice what is gone. -/
theorem next?_moved {forward : Bool} {position : Nat} (here : kept[position]? = some true)
    (entries : List (Nat × PlacedLabel)) :
    next? forward (place kept position) (entries.map (moved kept)) =
      (next? forward position entries).map (moved kept) := by
  cases forward with
  | true =>
      change List.find? _ _ = Option.map _ (List.find? _ _)
      rw [List.find?_map]
      congr 1
      refine List.find?_congr (fun entry _ => ?_)
      simp only [Function.comp_apply, moved, place_lt_iff here]
  | false =>
      change List.getLast? _ = Option.map _ (List.getLast? _)
      rw [List.filter_map, List.getLast?_map]
      congr 2
      refine List.filter_congr (fun entry member => ?_)
      simp only [Function.comp_apply, moved, ← Nat.not_lt, place_lt_iff here]

/-- The nearest entry is the first of those at its place. -/
theorem nearest_first {position : Nat} {candidates : List (Nat × PlacedLabel)} :
    ∀ {found : Nat × PlacedLabel}, nearest position candidates = some found →
      candidates.find? (fun entry => entry.1 == found.1) = some found := by
  induction candidates with
  | nil =>
      intro found nearest_is
      cases nearest_is
  | cons candidate rest ih =>
      intro found nearest_is
      rw [nearest] at nearest_is
      split at nearest_is
      · cases nearest_is
        simp
      · rename_i best there
        split at nearest_is
        · rename_i closer
          cases nearest_is
          have apart : candidate.1 ≠ found.1 := by
            intro same
            rw [same] at closer
            exact nearer_asymm closer closer
          rw [List.find?_cons_of_neg (by simpa using apart)]
          exact ih there
        · cases nearest_is
          simp

/-- A named reference stands between two declarations that it sees, and so does a line of texts
and comments only. -/
structure Torn (lines : Sequence) (position : Nat) (reference : LabelReference) : Prop where
  named : ∃ name scope, reference = .named name scope
  between : ∃ before ∈ visible reference lines, ∃ behind ∈ visible reference lines,
    before.1 ≤ position ∧ position < behind.1 ∧
    ∃ gap line, before.1 < gap ∧ gap < behind.1 ∧ lines[gap]? = some line ∧ line.isBare = true

section Nearest

variable (thinned : ThinnedLines kept lines others) {position : Nat}
  (here : kept[position]? = some true) {reference : LabelReference}
  (named : ∃ name scope, reference = .named name scope) (whole : ¬ Torn lines position reference)

include thinned named whole

/-- Where no reference is torn, distances to the declarations on both sides are kept. -/
theorem place_across {before behind : Nat × PlacedLabel} (seen : before ∈ visible reference lines)
    (also_seen : behind ∈ visible reference lines) (up_to : before.1 ≤ position)
    (ahead : position < behind.1) :
    place kept position = place kept before.1 + (position - before.1) ∧
      place kept behind.1 = place kept position + (behind.1 - position) := by
  have all : ∀ between, before.1 ≤ between → between < behind.1 → kept[between]? = some true := by
    intro between low high
    by_cases first : between = before.1
    · rw [first]
      exact kept_of_visible thinned seen
    · obtain ⟨last, found, _⟩ := mem_declarations.mp (List.mem_filter.mp also_seen).1
      have inside : between < lines.length := by
        have := (List.getElem?_eq_some_iff.mp found).1
        omega
      refine thinned.kept_of (List.getElem?_eq_getElem inside) ?_
      rw [Bool.eq_false_iff]
      intro bare
      exact whole ⟨named, before, seen, behind, also_seen, up_to, ahead, between, _,
        by omega, high, List.getElem?_eq_getElem inside, bare⟩
  have near := @place_add kept before.1 (position - before.1)
    (fun between low high => all between low (by omega))
  have far := @place_add kept position (behind.1 - position)
    (fun between low high => all between (by omega) (by omega))
  rw [Nat.add_sub_cancel' up_to] at near
  rw [Nat.add_sub_cancel' (Nat.le_of_lt ahead)] at far
  exact ⟨near, far⟩

include here

/-- Which of two declarations is nearer does not change with the lines that are gone. -/
theorem nearer_thinned {first second : Nat × PlacedLabel} (seen : first ∈ visible reference lines)
    (also_seen : second ∈ visible reference lines)
    (nearer_is : nearer position first.1 second.1 = true) :
    nearer (place kept position) (place kept first.1) (place kept second.1) = true := by
  have held := kept_of_visible thinned seen
  have also_held := kept_of_visible thinned also_seen
  have up_to : ∀ {entry : Nat}, entry ≤ position → place kept entry ≤ place kept position :=
    fun low => place_le kept low
  have ahead : ∀ {entry : Nat}, position < entry → place kept position < place kept entry :=
    fun high => place_lt here high
  rw [nearer_iff] at nearer_is ⊢
  unfold distance at nearer_is ⊢
  rcases Nat.lt_or_ge position first.1 with first_ahead | first_up_to
  · have := ahead first_ahead
    rcases Nat.lt_or_ge position second.1 with second_ahead | second_up_to
    · have := ahead second_ahead
      have := place_lt held (show first.1 < second.1 by omega)
      omega
    · obtain ⟨near, far⟩ := place_across thinned named whole also_seen seen second_up_to first_ahead
      omega
  · have := up_to first_up_to
    rcases Nat.lt_or_ge position second.1 with second_ahead | second_up_to
    · obtain ⟨near, far⟩ := place_across thinned named whole seen also_seen first_up_to second_ahead
      omega
    · have := up_to second_up_to
      have := place_lt also_held (show second.1 < first.1 by omega)
      omega

/-- The nearest declaration stays the nearest. -/
theorem nearest_thinned :
    nearest (place kept position) ((visible reference lines).map (moved kept)) =
      (nearest position (visible reference lines)).map (moved kept) := by
  cases seen : visible reference lines with
  | nil => rfl
  | cons first rest =>
      have listed : first ∈ visible reference lines := by rw [seen]; exact List.mem_cons_self
      rw [← seen]
      obtain ⟨found, nearest_is⟩ := exists_nearest position listed
      obtain ⟨other, other_is⟩ := exists_nearest (place kept position)
        (List.mem_map.mpr ⟨first, listed, rfl⟩ : moved kept first ∈ _)
      have member := nearest_mem nearest_is
      obtain ⟨source, source_is, rfl⟩ := List.mem_map.mp (nearest_mem other_is)
      have same : source.1 = found.1 := by
        by_contra apart
        rcases nearer_total apart with closer | closer
        · exact nearest_not_nearer nearest_is source source_is closer
        · refine nearest_not_nearer other_is (moved kept found)
            (List.mem_map.mpr ⟨found, member, rfl⟩) ?_
          exact nearer_thinned thinned here named whole member source_is closer
      have chosen := nearest_first other_is
      rw [List.find?_map] at chosen
      have only : (visible reference lines).find?
          ((fun entry => entry.1 == (moved kept source).1) ∘ moved kept) =
          (visible reference lines).find? (fun entry => entry.1 == found.1) := by
        refine List.find?_congr (fun entry entry_is => ?_)
        simp only [Function.comp_apply, moved, same]
        rw [Bool.eq_iff_iff, beq_iff_eq, beq_iff_eq]
        constructor
        · exact place_inj (kept_of_visible thinned entry_is) (kept_of_visible thinned member)
        · exact congrArg (place kept)
      rw [only, nearest_first nearest_is] at chosen
      rw [nearest_is, other_is, chosen]

end Nearest

/-- A reference means the same declaration of the sequence, or it is torn. -/
theorem local?_thinned (thinned : ThinnedLines kept lines others) {position : Nat}
    (here : kept[position]? = some true) (reference : LabelReference)
    (whole : ¬ Torn lines position reference) :
    local? others (place kept position) reference =
      (local? lines position reference).map (moved kept) := by
  cases reference with
  | named name scope =>
      change nearest _ _ = (nearest _ _).map _
      rw [visible_thinned thinned]
      exact nearest_thinned thinned here ⟨name, scope, rfl⟩ whole
  | numeric slot forward scope =>
      rw [local?_numeric, local?_numeric, visible_thinned thinned]
      exact next?_moved here _

end LabelIndex

end Lines

/-! ## Indices -/

namespace LabelIndex

/-- Two indices of the same names with related targets. -/
structure Alike (R : LabelTarget → LabelTarget → Prop) (here there : LabelIndex) : Prop where
  globals : Strategy.Alike R here.globals there.globals
  data : Strategy.Alike R here.data there.data

section Tables

variable {σ τ : Type} {R : σ → τ → Prop} {here : KeyMap σ} {there : KeyMap τ}

theorem find?_alike (alike : Strategy.Alike R here there) (key : String) :
    Option.Rel R (here.find? key) (there.find? key) := by
  induction alike with
  | nil => exact .none
  | @cons entry other rest others pair _ ih =>
      obtain ⟨first, held⟩ := entry
      obtain ⟨name, kept⟩ := other
      obtain ⟨rfl, related⟩ := pair
      simp only [KeyMap.find?]
      split
      · exact .some related
      · exact ih

theorem contains_alike (alike : Strategy.Alike R here there) (key : String) :
    here.contains key = there.contains key := by
  have found := find?_alike alike key
  rw [KeyMap.contains, KeyMap.contains]
  generalize here.find? key = first at found
  generalize there.find? key = second at found
  cases found <;> rfl

end Tables

section Filling

variable {R : LabelTarget → LabelTarget → Prop} {here there : LabelIndex} {target other : LabelTarget}

theorem addGlobal_agree (alike : Alike R here there) (name : String) (related : R target other) :
    Agree (Alike R) (here.addGlobal name target) (there.addGlobal name other) := by
  rw [addGlobal, addGlobal, contains_alike alike.globals]
  split
  · exact .error _
  · exact .ok { alike with globals := insert_alike alike.globals name related }

theorem addData_agree (alike : Alike R here there) (label : Label) (related : R target other) :
    Agree (Alike R) (here.addData label target) (there.addData label other) := by
  have entered : ∀ {first second : LabelIndex}, Alike R first second →
      Strategy.Alike R
        (if first.data.contains label.name.render then first.data
          else first.data.insert label.name.render target)
        (if second.data.contains label.name.render then second.data
          else second.data.insert label.name.render other) := by
    intro first second both
    rw [contains_alike both.data]
    split
    · exact both.data
    · exact insert_alike both.data _ related
  unfold addData
  split
  · exact (addGlobal_agree alike _ related).bind
      (fun _ _ both => .ok ⟨both.globals, entered both⟩)
  · exact .ok ⟨alike.globals, entered alike⟩

theorem foldlM_agree {β γ : Type} {P : β → γ → Prop} {step : LabelIndex → β → Except Fault LabelIndex}
    {further : LabelIndex → γ → Except Fault LabelIndex}
    (each : ∀ {here there item counterpart}, Alike R here there → P item counterpart →
      Agree (Alike R) (step here item) (further there counterpart))
    {items : List β} {others : List γ} (paired : List.Forall₂ P items others) :
    ∀ {here there : LabelIndex}, Alike R here there →
      Agree (Alike R) (items.foldlM step here) (others.foldlM further there) := by
  induction paired with
  | nil => exact fun alike => .ok alike
  | cons first _ ih =>
      intro here there alike
      rw [List.foldlM_cons, List.foldlM_cons]
      exact (each alike first).bind (fun _ _ both => ih both)

theorem addInstruction_agree (alike : Alike R here there) (line : Instruction)
    (related : R target other) :
    Agree (Alike R) (here.addInstruction target line)
      (there.addInstruction other line.hushed) := by
  refine Agree.mapError ?_ _
  refine foldlM_agree (P := Eq) ?_ (List.forall₂_same.mpr (fun _ _ => rfl)) alike
  rintro here there placed _ both rfl
  exact addGlobal_agree both _ related

theorem addFrom_agree {kept : List Bool} {lines others : Sequence} (phase : PhaseKind)
    (sequence : Nat) (thinned : ThinnedLines kept lines others) :
    ∀ {position counterpart : Nat} {here there : LabelIndex}, Alike R here there →
      (∀ offset, kept[offset]? = some true → R (.code phase sequence (position + offset))
        (.code phase sequence (counterpart + place kept offset))) →
      Agree (Alike R) (addFrom phase sequence position here lines)
        (addFrom phase sequence counterpart there others) := by
  induction thinned with
  | nil => exact fun alike _ => .ok alike
  | @keep kept _ _ line _ related _ ih =>
      intro position counterpart here there alike meets
      subst related
      rw [addFrom, addFrom]
      refine (addInstruction_agree alike line (meets 0 rfl)).bind (fun _ _ both => ih both ?_)
      intro offset held
      have later := meets (offset + 1) (by simpa using held)
      rw [place_kept] at later
      have shift : ∀ first second, first + 1 + second = first + (second + 1) := by omega
      rw [shift, shift]
      exact later
  | @drop kept rest _ line left_out _ ih =>
      intro position counterpart here there alike meets
      obtain ⟨_, unlabelled, _, _⟩ := Instruction.isBare_iff.mp left_out
      have nothing : here.addInstruction (.code phase sequence position) line = .ok here := by
        rw [addInstruction, globalLabels, unlabelled]
        rfl
      rw [addFrom, nothing]
      refine ih alike (fun offset held => ?_)
      have later := meets (offset + 1) (by simpa using held)
      rw [place_dropped] at later
      have shift : position + 1 + offset = position + (offset + 1) := by omega
      rw [shift]
      exact later

/-- Two numbered sequences, the second without lines of texts and comments, whose lines have
related places. -/
structure Follows (R : LabelTarget → LabelTarget → Prop) (sequence other : NumberedSequence) :
    Prop where
  phase : sequence.phase = other.phase
  number : sequence.number = other.number
  lines : ∃ kept, ThinnedLines kept sequence.instructions other.instructions ∧
    ∀ position, kept[position]? = some true →
      R (.code sequence.phase sequence.number position)
        (.code sequence.phase sequence.number (place kept position))

/-- The indices of two programs are alike when their labels and sequences are. -/
theorem ofAll_agree {labels others : List (Label × LabelTarget)}
    (same : List.Forall₂ (fun entry other => entry.1 = other.1 ∧ R entry.2 other.2) labels others)
    {sequences counterparts : List NumberedSequence}
    (follow : List.Forall₂ (Follows R) sequences counterparts) :
    Agree (Alike R) (ofAll labels sequences) (ofAll others counterparts) := by
  have data : Agree (Alike R) (addDataLabels {} labels) (addDataLabels {} others) := by
    refine foldlM_agree ?_ same ⟨.nil, .nil⟩
    rintro here there ⟨label, target⟩ ⟨_, other⟩ both ⟨rfl, related⟩
    exact addData_agree both label related
  refine data.bind (fun _ _ both => foldlM_agree ?_ follow both)
  rintro here there ⟨phase, number, instructions⟩ ⟨_, _, others⟩ alike ⟨rfl, rfl, kept, thinned, meets⟩
  exact addFrom_agree phase number thinned alike (fun offset held => by simpa using meets offset held)

end Filling

/-! ## References -/

/-- Printed the same and at related places. -/
def SamePlace (R : LabelTarget → LabelTarget → Prop) (label other : ResolvedLabel) : Prop :=
  label.rendered = other.rendered ∧ R label.target other.target

section Linking

variable {R : LabelTarget → LabelTarget → Prop} {here there : LabelIndex} {kept : List Bool}
  {lines others : Sequence} {phase : PhaseKind} {sequence : Nat}

theorem outer?_alike (alike : Alike R here there) (reference : LabelReference) :
    Option.Rel (SamePlace R) (here.outer? reference) (there.outer? reference) := by
  cases reference with
  | numeric slot forward scope => exact .none
  | named name scope =>
      simp only [outer?]
      have global := find?_alike alike.globals name
      have data := find?_alike alike.data name
      generalize here.globals.find? name = first at global
      generalize there.globals.find? name = second at global
      generalize here.data.find? name = third at data
      generalize there.data.find? name = fourth at data
      cases global with
      | some related => exact .some ⟨rfl, related⟩
      | none =>
          cases data with
          | none => exact .none
          | some related => exact .some ⟨rfl, related⟩

variable (alike : Alike R here there) (thinned : ThinnedLines kept lines others)
  (meets : ∀ position, kept[position]? = some true →
    R (.code phase sequence position) (.code phase sequence (place kept position)))

include alike thinned meets

/-- **References without the lines of texts and comments.**  A reference of a line that is kept
means something in both sequences or in neither, and the same place printed the same unless it
is torn. -/
theorem find?_thinned {position : Nat} (held : kept[position]? = some true)
    (reference : LabelReference) :
    Option.Rel (fun label other => SamePlace R label other ∨ Torn lines position reference)
      (here.find? phase sequence lines position reference)
      (there.find? phase sequence others (place kept position) reference) := by
  by_cases torn : Torn lines position reference
  · obtain ⟨⟨name, scope, rfl⟩, before, seen, _⟩ := id torn
    have also_seen : moved kept before ∈ visible (.named name scope) others := by
      rw [visible_thinned thinned]
      exact List.mem_map.mpr ⟨before, seen, rfl⟩
    obtain ⟨found, nearest_is⟩ := exists_nearest position seen
    obtain ⟨other, other_is⟩ := exists_nearest (place kept position) also_seen
    rw [find?, find?, local?, local?]
    simp only [nearest_is, other_is]
    exact .some (.inr torn)
  · have same := local?_thinned thinned held reference torn
    rw [find?, find?, same]
    cases found : local? lines position reference with
    | none =>
        have outer := outer?_alike alike reference
        generalize here.outer? reference = first at outer
        generalize there.outer? reference = second at outer
        cases outer with
        | none => exact .none
        | some related => exact .some (.inl related)
    | some entry =>
        have listed : entry ∈ visible reference lines := by
          cases reference with
          | named name scope => exact nearest_mem found
          | numeric slot forward scope =>
              rw [local?_numeric] at found
              exact (next?_spec ((declarations_inOrder lines).filter _) found).1
        exact .some (.inl ⟨rfl, meets _ (kept_of_visible thinned listed)⟩)

end Linking

end LabelIndex

/-! ## Bound lines -/

/-- Two operands of the same value or address, or of the same reference, printed the same and
bound to related places unless it is torn. -/
inductive SameOperand (R : LabelTarget → LabelTarget → Prop) (lines : Sequence) (position : Nat) :
    Operand → Operand → Prop
  | value (scalar : Scalar) : SameOperand R lines position (.value scalar) (.value scalar)
  | address (reference : AddressReference) :
      SameOperand R lines position (.address reference) (.address reference)
  | label (reference : LabelReference) {label other : ResolvedLabel}
      (same : LabelIndex.SamePlace R label other ∨ LabelIndex.Torn lines position reference) :
      SameOperand R lines position (.label reference (some label)) (.label reference (some other))

/-- A line and its position, beside the line without texts and comments: the name and whatever
else a line has are the same, and so are the operands. -/
structure SameLine (R : LabelTarget → LabelTarget → Prop) (lines : Sequence)
    (line other : Instruction × Nat) : Prop where
  rest : other.1.unbound = line.1.hushed.unbound
  operands : List.Forall₂ (SameOperand R lines line.2) line.1.operands other.1.operands

theorem Instruction.unbound_isBare (line : Instruction) : line.unbound.isBare = line.isBare := by
  simp [Instruction.isBare, Instruction.unbound]

/-- Sequences that differ in where operands are bound to differ so line by line. -/
theorem Sequence.unbound_at {lines others : Sequence}
    (same : lines.map Instruction.unbound = others.map Instruction.unbound) {position : Nat}
    {line : Instruction} (found : lines[position]? = some line) :
    ∃ other, others[position]? = some other ∧ other.unbound = line.unbound := by
  have there : (others[position]?).map Instruction.unbound = some line.unbound := by
    rw [← List.getElem?_map, ← same, List.getElem?_map, found]
    rfl
  exact Option.map_eq_some_iff.mp there

namespace LabelIndex

theorem Torn.of_unbound {lines others : Sequence} {position : Nat} {reference : LabelReference}
    (same : lines.map Instruction.unbound = others.map Instruction.unbound)
    (torn : Torn lines position reference) : Torn others position reference := by
  have seen : visible reference others = visible reference lines := by
    rw [visible, visible, ← declarations_unbound others, ← declarations_unbound lines, same]
  obtain ⟨named, before, before_is, behind, behind_is, up_to, ahead, gap, line, low, high, found,
    bare⟩ := torn
  obtain ⟨other, there, unbound⟩ := Sequence.unbound_at same found
  refine ⟨named, before, seen ▸ before_is, behind, seen ▸ behind_is, up_to, ahead, gap, other,
    low, high, there, ?_⟩
  rw [← other.unbound_isBare, unbound, line.unbound_isBare]
  exact bare

section Resolving

variable {R : LabelTarget → LabelTarget → Prop} {here there : LabelIndex} {kept : List Bool}
  {lines others results bound : Sequence} {phase : PhaseKind} {sequence : Nat}
  (alike : Alike R here there) (thinned : ThinnedLines kept lines others)
  (meets : ∀ position, kept[position]? = some true →
    R (.code phase sequence position) (.code phase sequence (place kept position)))
  (resolved : here.resolve phase sequence lines = .ok results)

include alike thinned meets resolved

/-- What can be bound can be bound without the lines of texts and comments. -/
theorem exists_resolved : ∃ bound, there.resolve phase sequence others = .ok bound := by
  rw [resolve_ok_iff]
  intro position other reference bound found refers
  obtain ⟨source, line, held, listed, rfl, rfl⟩ := thinned.source found
  obtain ⟨label, meant⟩ := resolve_ok_iff.mp ⟨results, resolved⟩ source line reference bound listed
    refers
  have both := find?_thinned alike thinned meets held reference
  rw [meant] at both
  generalize there.find? phase sequence others (place kept source) reference = second at both
  cases both with
  | some _ => exact ⟨_, rfl⟩

variable (also_resolved : there.resolve phase sequence others = .ok bound)

include also_resolved

/-- An operand of a line that is left is what it was but for where it is bound to. -/
theorem operand_thinned {position : Nat} (held : kept[position]? = some true)
    {line other : Instruction} (found : results[position]? = some line)
    (there_found : bound[place kept position]? = some other) {operand counterpart : Operand}
    (listed : operand ∈ line.operands) (also_listed : counterpart ∈ other.operands)
    (same : counterpart.unbound = operand.unbound) :
    SameOperand R results position operand counterpart := by
  obtain ⟨unbound, binds⟩ := resolve_ok resolved
  have also_binds := (resolve_ok also_resolved).2
  cases operand with
  | value scalar =>
      cases counterpart with
      | value other =>
          cases same
          exact .value _
      | label reference bound => cases same
      | address reference => cases same
  | address reference =>
      cases counterpart with
      | value scalar => cases same
      | label reference bound => cases same
      | address other =>
          cases same
          exact .address _
  | label reference bound_to =>
      cases counterpart with
      | value scalar => cases same
      | address reference => cases same
      | label other also_bound =>
          cases same
          obtain ⟨label, rfl, meant⟩ := binds position line reference bound_to found listed
          obtain ⟨counterpart, rfl, also_meant⟩ :=
            also_binds _ other reference also_bound there_found also_listed
          have both := find?_thinned alike thinned meets held reference
          rw [meant, also_meant] at both
          cases both with
          | some related =>
              exact .label reference (related.imp_right (Torn.of_unbound unbound.symm))

/-- **Bound without the lines of texts and comments.**  The lines that are left have the same
operands, bound to related places but for torn references. -/
theorem resolve_thinned :
    Thinned (SameLine R results) (fun line => line.1.isBare) kept results.zipIdx bound.zipIdx := by
  have unbound := (resolve_ok resolved).1
  have also_unbound := (resolve_ok also_resolved).1
  have sizes : results.length = lines.length := by simpa using congrArg List.length unbound
  have also_sizes : bound.length = others.length := by
    simpa using congrArg List.length also_unbound
  refine Thinned.of_places ?_ ?_ ?_ ?_
  · rw [List.length_zipIdx, sizes, thinned.length]
  · rw [List.length_zipIdx, also_sizes, thinned.size]
  · rintro position ⟨line, number⟩ dropped found
    rw [List.getElem?_zipIdx, Option.map_eq_some_iff] at found
    obtain ⟨_, found, same⟩ := found
    cases same
    obtain ⟨source, listed, same⟩ := Sequence.unbound_at unbound found
    by_contra spoken
    rw [Bool.not_eq_true, ← line.unbound_isBare, ← same, source.unbound_isBare] at spoken
    rw [thinned.kept_of listed spoken] at dropped
    cases dropped
  · rintro position ⟨line, number⟩ ⟨other, counterpart⟩ held found there_found
    rw [List.getElem?_zipIdx, Option.map_eq_some_iff] at found there_found
    obtain ⟨_, found, same⟩ := found
    cases same
    obtain ⟨_, there_found, same⟩ := there_found
    cases same
    obtain ⟨source, listed, same⟩ := Sequence.unbound_at unbound found
    obtain ⟨left, also_listed, also_same⟩ := Sequence.unbound_at also_unbound there_found
    obtain ⟨_, there_listed, rfl⟩ := thinned.kept_at held listed
    rw [also_listed] at there_listed
    cases there_listed
    have rest : other.unbound = line.hushed.unbound := by
      rw [← also_same]
      change source.unbound.hushed = line.unbound.hushed
      rw [same]
    refine ⟨rest, (Paired.of_map_eq (congrArg Instruction.operands rest)).imp ?_⟩
    rintro operand partner ⟨operand_is, partner_is, same⟩
    rw [Nat.zero_add]
    exact operand_thinned alike thinned meets resolved also_resolved held found there_found
      operand_is partner_is same

end Resolving

end LabelIndex
end TestProgram
