/-
# TestProgram.Proofs.WeakLabels -- what is left to refer to when weak labels give way

A weak label gives way to any strong one of its name in the stream and to any weak one before
it, wherever these stand.  So of the declarations of a name the strong ones stay, or the
first weak one where there are none (`staying`, `ofName_finalized`).

Which label stays is decided by names alone and what a reference sees by blocks, so a weak
label in sight can give way to one that is out of sight.  `named_reference_resolves_iff` says
exactly when a named reference is left with something to be bound to, and
`weak_label_lost` is a stream whose one reference is not.
-/
import TestProgram.Expansion
import TestProgram.Proofs.Placement
import TestProgram.Strategy.Builtin

namespace TestProgram.LabelNames

set_option autoImplicit false

/-- The declarations of a name that stay when the weak ones have given way: the strong ones,
or the first weak one where there are none. -/
def staying (labels : List Label) (name : String) : List Label :=
  let declared := labels.filter (fun label => label.name == .named name)
  if declared.all Label.isWeak then declared.take 1
  else declared.filter (fun label => !label.isWeak)

/-- The labels of a name among some that are printed. -/
def ofName (name : String) (placed : List PlacedLabel) : List Label :=
  (placed.map PlacedLabel.label).filter (fun label => label.name == .named name)

theorem ofName_append (name : String) (first second : List PlacedLabel) :
    ofName name (first ++ second) = ofName name first ++ ofName name second := by
  simp [ofName]

theorem weakName_eq_iff {label : Label} {name : String} :
    label.role.weak? = some name ↔ label.name = .named name ∧ label.isWeak = true := by
  obtain ⟨name_is, isGlobal, isWeak, scope⟩ := label
  cases name_is with
  | numeric slot => simp [Label.role, Role.weak?]
  | named other => cases isWeak <;> cases isGlobal <;> simp [Label.role, Role.weak?]

theorem strongName?_eq_iff {label : Label} {name : String} :
    label.strongName? = some name ↔ label.name = .named name ∧ label.isWeak = false := by
  obtain ⟨name_is, isGlobal, isWeak, scope⟩ := label
  cases name_is with
  | numeric slot => simp [Label.strongName?]
  | named other => cases isWeak <;> simp [Label.strongName?]

theorem mem_strongNames_iff {calls : List Call} {name : String} :
    name ∈ strongNames calls ↔
      ∃ label ∈ calls.flatMap Call.labels, label.name = .named name ∧ label.isWeak = false := by
  simp only [strongNames, List.mem_flatMap, List.mem_filterMap, strongName?_eq_iff]
  constructor
  · rintro ⟨call, listed, label, held, strong⟩
    exact ⟨label, ⟨call, listed, held⟩, strong⟩
  · rintro ⟨label, ⟨call, listed, held⟩, strong⟩
    exact ⟨call, listed, label, held, strong⟩

/-- A strong label of the name stays; a weak one gives way to a strong one anywhere and to a
weak one before it. -/
theorem ofName_placed? (strong : List String) (before : List Label) {label : Label}
    {name : String} (named : label.name = .named name) :
    ofName name (placed? strong before label).toList =
      if label.isWeak = true ∧ (name ∈ strong ∨ name ∈ weakNames before) then [] else [label] := by
  obtain ⟨name_is, isGlobal, isWeak, scope⟩ := label
  subst named
  cases isWeak with
  | false => cases isGlobal <;> simp [placed?, Label.role, ofName]
  | true =>
      by_cases yields : name ∈ strong ∨ name ∈ weakNames before
      · simp [placed?, Label.role, ofName, yields]
      · simp [placed?, Label.role, ofName, yields]

theorem ofName_placed?_other (strong : List String) (before : List Label) {label : Label}
    {name : String} (other : label.name ≠ .named name) :
    ofName name (placed? strong before label).toList = [] := by
  cases kept : placed? strong before label with
  | none => rfl
  | some placed => simp [ofName, placed?_label kept, other]

theorem ofName_placedFrom_strong {strong : List String} {name : String} (taken : name ∈ strong)
    (labels : List Label) : ∀ before, ofName name (placedFrom strong before labels) =
      (labels.filter (fun label => label.name == .named name)).filter
        (fun label => !label.isWeak) := by
  induction labels with
  | nil => intro before; rfl
  | cons label rest ih =>
      intro before
      rw [placedFrom, ofName_append, ih]
      by_cases named : label.name = .named name
      · rw [ofName_placed? strong before named]
        cases weak : label.isWeak <;> simp [named, weak, taken]
      · rw [ofName_placed?_other strong before named]
        simp [named]

theorem ofName_placedFrom_weak {strong : List String} {name : String} (free : name ∉ strong)
    (labels : List Label) (weak : ∀ label ∈ labels, label.name = .named name → label.isWeak = true) :
    ∀ before, ofName name (placedFrom strong before labels) =
      if name ∈ weakNames before then []
      else (labels.filter (fun label => label.name == .named name)).take 1 := by
  induction labels with
  | nil => intro before; simp [placedFrom, ofName]
  | cons label rest ih =>
      intro before
      have later := ih (fun other member => weak other (List.mem_cons_of_mem _ member))
      rw [placedFrom, ofName_append, later, weakNames_concat]
      by_cases named : label.name = .named name
      · have yields := weak label List.mem_cons_self named
        have now_weak : label.role.weak? = some name := weakName_eq_iff.mpr ⟨named, yields⟩
        rw [ofName_placed? strong before named]
        by_cases earlier : name ∈ weakNames before <;>
          simp [named, yields, free, earlier, now_weak]
      · have not_it : name ∉ label.role.weak?.toList := by
          rw [Option.mem_toList]
          exact fun same => named (weakName_eq_iff.mp same).1
        rw [ofName_placed?_other strong before named]
        simp [named, not_it]

/-- What is left of a name in a finalized sequence. -/
theorem ofName_finalized {stream : Stream Call} {engine after : Engine} {sequence : Sequence}
    (run : finalize stream engine = (.ok sequence, after)) (name : String) :
    ofName name (sequence.flatMap Instruction.labels) =
      staying (stream.emissions.flatMap Call.labels) name := by
  rw [finalize_placed run, staying]
  by_cases taken : name ∈ strongNames stream.emissions
  · obtain ⟨label, member, named, strong⟩ := mem_strongNames_iff.mp taken
    have not_all : ((stream.emissions.flatMap Call.labels).filter
        (fun label => label.name == .named name)).all Label.isWeak = false := by
      rw [List.all_eq_false]
      exact ⟨label, List.mem_filter.mpr ⟨member, by simp [named]⟩, by simp [strong]⟩
    rw [ofName_placedFrom_strong taken, not_all]
    rfl
  · have weak : ∀ label ∈ stream.emissions.flatMap Call.labels,
        label.name = .named name → label.isWeak = true := by
      intro label member named
      by_contra strong
      exact taken (mem_strongNames_iff.mpr ⟨label, member, named, by simpa using strong⟩)
    have all : ((stream.emissions.flatMap Call.labels).filter
        (fun label => label.name == .named name)).all Label.isWeak = true := by
      rw [List.all_eq_true]
      intro label member
      obtain ⟨listed, named⟩ := List.mem_filter.mp member
      exact weak label listed (by simpa using named)
    rw [ofName_placedFrom_weak taken _ weak, all]
    simp [weakNames]

/-! ## References -/

/-- A reference finds a declaration in its sequence when one of those that are left of its
name is in sight. -/
theorem exists_local?_iff (sequence : Sequence) (position : Nat) (name : String)
    (scope : BlockId) :
    (∃ found, LabelIndex.local? sequence position (.named name scope) = some found) ↔
      ∃ label ∈ ofName name (sequence.flatMap Instruction.labels),
        label.scope.encloses scope = true := by
  constructor
  · rintro ⟨⟨place, placed⟩, found⟩
    obtain ⟨declared, seen⟩ := List.mem_filter.mp (LabelIndex.nearest_mem found)
    obtain ⟨encloses, named⟩ := Bool.and_eq_true_iff.mp seen
    obtain ⟨line, there, held⟩ := LabelIndex.mem_declarations.mp declared
    have listed : placed ∈ sequence.flatMap Instruction.labels :=
      List.mem_flatMap.mpr ⟨line, List.mem_of_getElem? there, held⟩
    refine ⟨placed.label, List.mem_filter.mpr ⟨?_, named⟩, encloses⟩
    exact List.mem_map.mpr ⟨placed, listed, rfl⟩
  · rintro ⟨label, left, encloses⟩
    obtain ⟨printed, named⟩ := List.mem_filter.mp left
    obtain ⟨placed, listed, rfl⟩ := List.mem_map.mp printed
    obtain ⟨line, member, held⟩ := List.mem_flatMap.mp listed
    obtain ⟨place, there⟩ := List.mem_iff_getElem?.mp member
    have declared := LabelIndex.mem_declarations.mpr ⟨line, there, held⟩
    have seen : (place, placed) ∈ LabelIndex.visible (.named name scope) sequence :=
      List.mem_filter.mpr ⟨declared, Bool.and_eq_true_iff.mpr ⟨encloses, named⟩⟩
    exact LabelIndex.exists_nearest position seen

theorem exists_outer?_iff (index : LabelIndex) (name : String) (scope : BlockId) :
    (∃ label, index.outer? (.named name scope) = some label) ↔
      index.globals.contains name = true ∨ index.data.contains name = true := by
  simp only [LabelIndex.outer?, KeyMap.contains]
  cases index.globals.find? name <;> cases index.data.find? name <;> simp

/-- **What weak labels leave to refer to.**  In a finalized stream a named reference is
resolved exactly when a declaration of its name that stays encloses its scope (a strong one if
the stream has any of the name, else the first weak one), or when the name is a global label
or one of the data; and a sequence can be bound exactly when all its references are resolved. -/
theorem named_reference_resolves_iff (stream : Stream Call) (engine after : Engine)
    (sequence : Sequence) (run : finalize stream engine = (.ok sequence, after))
    (index : LabelIndex) (phase : PhaseKind) (number : Nat) :
    (∀ position name scope, stream.Refers position (.named name scope) →
      ((∃ label, index.find? phase number sequence position (.named name scope) = some label) ↔
        (∃ label ∈ staying (stream.emissions.flatMap Call.labels) name,
          label.scope.encloses scope = true) ∨
        index.globals.contains name = true ∨ index.data.contains name = true)) ∧
    ((∃ results, index.resolve phase number sequence = .ok results) ↔
      ∀ position reference, stream.Refers position reference →
        ∃ label, index.find? phase number sequence position reference = some label) := by
  constructor
  · intro position name scope _
    rw [← ofName_finalized run, ← exists_local?_iff sequence position,
      ← exists_outer?_iff index name scope, LabelIndex.find?]
    cases LabelIndex.local? sequence position (.named name scope) with
    | none => simp
    | some found => simp
  · rw [LabelIndex.resolve_ok_iff]
    constructor
    · intro each position reference refers
      obtain ⟨line, bound, here, listed⟩ := (refers_finalized_iff run).mp refers
      exact each position line reference bound here listed
    · intro each position line reference bound here listed
      exact each position reference ((refers_finalized_iff run).mpr ⟨line, bound, here, listed⟩)

/-- A weak label in the root block, a strong one in the block behind it, and a jump to the
first from the root block. -/
def retrying (weak strong : String) : Tree Call :=
  .block { id := BlockId.root, kind := .sequence }
    [.leaf { name := "try", labels := [{ name := .named weak, isWeak := true,
                                         scope := BlockId.root }] },
     .block { id := BlockId.root.child 1, kind := .sequence }
       [.leaf { name := "nop", labels := [{ name := .named strong,
                                            scope := BlockId.root.child 1 }] }],
     .leaf { name := "jump", arguments := [.label (.named weak BlockId.root)] }]

/-- The calls of `retrying` one after another. -/
def retried (weak strong : String) : Stream Call :=
  Stream.ofUnits ((retrying weak strong).calls.map (fun call => [call]))

theorem retried_refers (weak strong : String) :
    (retried weak strong).Refers 2 (.named weak BlockId.root) :=
  ⟨_, rfl, List.mem_singleton.mpr rfl⟩

theorem weak_label_kept :
    ∃ sequence after,
      finalize (retried "again" "done") (Engine.ofSeed 1) = (.ok sequence, after) ∧
      ∃ label, ({} : LabelIndex).find? .main 0 sequence 2 (.named "again" BlockId.root) =
        some label := by
  refine ⟨_, _, rfl, ?_⟩
  have each := (named_reference_resolves_iff (retried "again" "done") (Engine.ofSeed 1) _ _ rfl
    {} .main 0).1
  exact (each 2 "again" BlockId.root (retried_refers _ _)).mpr (.inl (by decide))

/-- A weak label that is in sight of a reference gives way to a strong one that is not, and
the reference is left without a declaration. -/
theorem weak_label_lost :
    ∃ expanded sequence after,
      Expansion.expand Strategy.builtins (retrying "x" "x") (Engine.ofSeed 1) =
        (.ok [retried "x" "x"], expanded) ∧
      (retried "x" "x").Refers 2 (.named "x" BlockId.root) ∧
      (∃ label ∈ (retried "x" "x").emissions.flatMap Call.labels,
        label.name = .named "x" ∧ label.scope.encloses BlockId.root = true) ∧
      finalize (retried "x" "x") expanded = (.ok sequence, after) ∧
      ({} : LabelIndex).resolve .main 0 sequence =
        .error (Fault.of (.unresolvedLabel (.named "x" BlockId.root))) := by
  refine ⟨_, _, _, rfl, retried_refers _ _, ?_, rfl, rfl⟩
  decide

end TestProgram.LabelNames
