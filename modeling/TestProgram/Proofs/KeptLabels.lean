/-
# TestProgram.Proofs.KeptLabels -- which labels are left of a stream, and what they are printed as

Whether a label gives way can be read off the labels of its stream: a weak one does when a label
of its name that is not weak stands anywhere among them, or a weak one before it (`GivesWay`).
The lines of a finalized sequence carry the labels of their calls without those
(`finalize_kept`).  Numbers, weak and global labels are printed as they are written
(`finalize_written`), the local labels of a name by their places among themselves
(`finalize_numbered`).

A weak label gives way only to labels of its own name.  So no name is lost, and beside a weak
label no other one of its name is left (`finalize_one_kind`).
-/
import TestProgram.Proofs.WeakLabels

namespace TestProgram

set_option autoImplicit false

/-! ## What gives way -/

def LabelName.isNamed : LabelName → Bool
  | .named _ => true
  | .numeric _ => false

/-- A label gives way among all labels of its stream, of which some stand before it. -/
def Label.GivesWay (all before : List Label) (label : Label) : Prop :=
  label.isWeak = true ∧ label.name.isNamed = true ∧
    ((∃ other ∈ all, other.name = label.name ∧ other.isWeak = false) ∨
      ∃ other ∈ before, other.name = label.name ∧ other.isWeak = true)

instance (all before : List Label) (label : Label) : Decidable (label.GivesWay all before) :=
  inferInstanceAs (Decidable (_ ∧ _ ∧ (_ ∨ _)))

/-- The labels of a stream, call by call. -/
def Stream.labels (stream : Stream Call) : List Label :=
  stream.emissions.flatMap Call.labels

/-- The labels of a call that do not give way.  Before each of them stand those of the calls
before and the earlier ones of its own call. -/
def Call.kept (all earlier : List Label) (call : Call) : List Label :=
  (call.labels.zipIdx.filter (fun entry =>
    ¬ entry.1.GivesWay all (earlier ++ call.labels.take entry.2))).map Prod.fst

/-- The labels that a stream keeps, call by call. -/
def Stream.kept (stream : Stream Call) : List (List Label) :=
  stream.emissions.zipIdx.map (fun (call, position) =>
    call.kept stream.labels ((stream.emissions.take position).flatMap Call.labels))

/-- The labels of a sequence, as they are printed. -/
def Sequence.placed (sequence : Sequence) : List PlacedLabel :=
  sequence.flatMap Instruction.labels

/-- The labels of a name that a sequence prints. -/
def Sequence.ofName (sequence : Sequence) (name : String) : List PlacedLabel :=
  sequence.placed.filter (fun placed => placed.label.name == .named name)

/-- A label of the name that is neither weak nor global. -/
def Label.isLocal (name : String) (label : Label) : Bool :=
  label.name == .named name && !label.isWeak && !label.isGlobal

/-- The local labels of a name that a sequence prints. -/
def Sequence.locals (sequence : Sequence) (name : String) : List PlacedLabel :=
  sequence.placed.filter (fun placed => placed.label.isLocal name)

namespace LabelNames

theorem mem_weakNames {before : List Label} {name : String} :
    name ∈ weakNames before ↔ ∃ other ∈ before, other.name = .named name ∧ other.isWeak = true := by
  simp [weakNames, weakName_eq_iff]

theorem plainName_eq_iff {label : Label} {name : String} :
    label.role.plain? = some name ↔ label.isLocal name = true := by
  obtain ⟨name_is, isGlobal, isWeak, scope⟩ := label
  cases name_is with
  | numeric slot => simp [Label.role, Role.plain?, Label.isLocal]
  | named other => cases isWeak <;> cases isGlobal <;> simp [Label.role, Role.plain?, Label.isLocal]

section Placed

variable {stream : Stream Call}

/-- What the ledger drops is what gives way. -/
theorem placed?_eq_none_iff (before : List Label) (label : Label) :
    placed? (strongNames stream.emissions) before label = none ↔
      label.GivesWay stream.labels before := by
  obtain ⟨name_is, isGlobal, isWeak, scope⟩ := label
  cases name_is with
  | numeric slot => simp [placed?, Label.role, Label.GivesWay, LabelName.isNamed]
  | named name =>
      cases isWeak with
      | false => cases isGlobal <;> simp [placed?, Label.role, Label.GivesWay]
      | true =>
          rw [Label.GivesWay, Stream.labels, ← mem_strongNames_iff, ← mem_weakNames]
          simp [placed?, Label.role, LabelName.isNamed, or_iff_not_imp_left]

/-- Behind some labels, those that do not give way are left, in order. -/
theorem placedFrom_labels (labels : List Label) : ∀ before,
    (placedFrom (strongNames stream.emissions) before labels).map PlacedLabel.label =
      (labels.zipIdx.filter (fun entry =>
        ¬ entry.1.GivesWay stream.labels (before ++ labels.take entry.2))).map Prod.fst := by
  induction labels with
  | nil => intro before; rfl
  | cons label rest ih =>
      intro before
      -- the labels before an entry of the rest, seen from the first label on
      have later : ((fun entry : Label × Nat => decide
            (¬ entry.1.GivesWay stream.labels (before ++ (label :: rest).take entry.2))) ∘
              Prod.map id (· + 1)) =
          fun entry : Label × Nat => decide
            (¬ entry.1.GivesWay stream.labels (before ++ [label] ++ rest.take entry.2)) := by
        funext entry
        exact decide_eq_decide.mpr (by simp)
      rw [placedFrom, List.map_append, ih, List.zipIdx_cons', List.filter_cons, List.filter_map,
        later]
      cases kept : placed? (strongNames stream.emissions) before label with
      | none =>
          have yields := (placed?_eq_none_iff before label).mp kept
          simp [yields, Function.comp_def]
      | some placed =>
          have stays : ¬ label.GivesWay stream.labels before := by
            rw [← placed?_eq_none_iff, kept]
            simp
          simp [stays, placed?_label kept, Function.comp_def]

end Placed

/-- A local label is printed with the number of those of its name before it. -/
theorem placed?_local {strong : List String} {before : List Label} {label : Label} {name : String}
    (is_local : label.isLocal name = true) : placed? strong before label =
      some ⟨label, Ledger.suffixed name ((plainNames before).count name)⟩ := by
  have plain : label.role = .plain name := by
    have named := plainName_eq_iff.mpr is_local
    cases role_is : label.role with
    | plain other =>
        rw [role_is] at named
        cases named
        rfl
    | _ => simp [role_is, Role.plain?] at named
  rw [placed?, plain]

/-- The local labels of a name are numbered on from those before. -/
theorem placedFrom_locals (strong : List String) (name : String) (labels : List Label) :
    ∀ before, ((placedFrom strong before labels).filter
        (fun placed => placed.label.isLocal name)).map PlacedLabel.rendered =
      (List.range' ((plainNames before).count name) ((plainNames labels).count name)).map
        (Ledger.suffixed name) := by
  induction labels with
  | nil => intro before; rfl
  | cons label rest ih =>
      intro before
      rw [placedFrom, List.filter_append, List.map_append, ih, plainNames_concat, plainNames_cons,
        List.count_append, List.count_append]
      by_cases is_local : label.isLocal name = true
      · have plain := plainName_eq_iff.mpr is_local
        rw [placed?_local is_local, plain]
        simp [is_local, Nat.add_comm 1, List.range'_succ]
      · have other : label.role.plain?.toList.count name = 0 := by
          rw [List.count_eq_zero, Option.mem_toList]
          exact fun plain => is_local (plainName_eq_iff.mp plain)
        cases kept : placed? strong before label with
        | none => simp [other]
        | some placed => simp [other, placed?_label kept, is_local]

/-! ## Names -/

theorem staying_one_kind (labels : List Label) (name : String) :
    (∀ label ∈ staying labels name, label.isWeak = false) ∨
      ∃ label, staying labels name = [label] ∧ label.isWeak = true := by
  unfold staying
  dsimp only
  split
  · rename_i all_weak
    rw [List.all_eq_true] at all_weak
    cases declared : labels.filter (fun label => label.name == .named name) with
    | nil => exact .inl (by simp)
    | cons first others => exact .inr ⟨first, rfl, all_weak first (by simp [declared])⟩
  · exact .inl (by simp +contextual)

theorem staying_ne_nil {labels : List Label} {name : String} {label : Label}
    (member : label ∈ labels) (named : label.name = .named name) : staying labels name ≠ [] := by
  have held : label ∈ labels.filter (fun label => label.name == .named name) :=
    List.mem_filter.mpr ⟨member, by simp [named]⟩
  unfold staying
  dsimp only
  split
  · cases declared : labels.filter (fun label => label.name == .named name) with
    | nil => simp [declared] at held
    | cons first others => simp
  · rename_i some_strong
    obtain ⟨other, listed, strong⟩ := List.all_eq_false.mp ((Bool.not_eq_true _).mp some_strong)
    exact List.ne_nil_of_mem (List.mem_filter.mpr ⟨listed, by simpa using strong⟩)

/-! ## What is left -/

theorem kept_eq (stream : Stream Call) (before : List Label) (call : Call) :
    (placedFrom (strongNames stream.emissions) before call.labels).map PlacedLabel.label =
      call.kept stream.labels before :=
  placedFrom_labels call.labels before

section Finalized

variable {stream : Stream Call} {engine after : Engine} {sequence : Sequence}
  (run : finalize stream engine = (.ok sequence, after))

include run

/-- The labels of each line are those of its call that do not give way. -/
theorem finalize_kept :
    sequence.map (fun line => line.labels.map PlacedLabel.label) = stream.kept := by
  apply List.ext_getElem?
  intro position
  have line := congrArg (Option.map (List.map PlacedLabel.label)) (finalize_line run position)
  rw [Option.map_map, Option.map_map] at line
  simp only [Stream.kept, List.getElem?_map, List.getElem?_zipIdx, Option.map_map]
  refine Eq.trans line ?_
  cases stream.emissions[position]? with
  | none => rfl
  | some call => simp [Function.comp_def, kept_eq]

/-- Every label that is printed has its place among those of the stream. -/
theorem mem_placed {placed : PlacedLabel} (held : placed ∈ sequence.placed) :
    ∃ before, placed? (strongNames stream.emissions) before placed.label = some placed := by
  rw [Sequence.placed, finalize_placed run, mem_placedFrom] at held
  obtain ⟨earlier, label, later, _, kept⟩ := held
  exact ⟨earlier, by rwa [placed?_label kept]⟩

/-- Numbers are printed as they are, weak and global labels by their names. -/
theorem finalize_written {placed : PlacedLabel} (held : placed ∈ sequence.placed)
    (written : placed.label.name.isNamed = true →
      placed.label.isWeak = true ∨ placed.label.isGlobal = true) :
    placed.rendered = placed.label.name.render := by
  obtain ⟨before, kept⟩ := mem_placed run held
  obtain ⟨⟨name_is, isGlobal, isWeak, scope⟩, rendered⟩ := placed
  cases name_is with
  | numeric slot => exact placed?_numeric rfl kept
  | named name =>
      cases isWeak with
      | true =>
          simp only [placed?, Label.role, if_true] at kept
          split at kept
          · cases kept
          · cases kept
            rfl
      | false =>
          have global : isGlobal = true := by simpa using written rfl
          subst global
          cases kept
          rfl

/-- The local labels of a name are printed by their places among themselves. -/
theorem finalize_numbered {name : String} {index : Nat} {placed : PlacedLabel}
    (there : (sequence.locals name)[index]? = some placed) :
    placed.rendered = if index = 0 then name else name ++ "_" ++ toString index := by
  have numbered := placedFrom_locals (strongNames stream.emissions) name stream.labels []
  have texts := congrArg (fun (texts : List String) => texts[index]?) numbered
  rw [Stream.labels, ← finalize_placed run] at texts
  rw [Sequence.locals, Sequence.placed] at there
  simp only [List.getElem?_map, there, Option.map_some, plainNames, List.filterMap_nil,
    List.count_nil] at texts
  obtain ⟨number, listed, same⟩ := Option.map_eq_some_iff.mp texts.symm
  have inside : number = index := by
    obtain ⟨within, rfl⟩ := List.getElem?_eq_some_iff.mp listed
    simp
  rw [← same, inside, Ledger.suffixed]

theorem ofName_labels (name : String) :
    (sequence.ofName name).map PlacedLabel.label = staying stream.labels name := by
  rw [Stream.labels, ← ofName_finalized run, Sequence.ofName, ofName, List.filter_map]
  rfl

/-- Of a name either strong labels only are left or a single weak one. -/
theorem finalize_one_kind (name : String) :
    (∀ placed ∈ sequence.ofName name, placed.label.isWeak = false) ∨
      ∃ placed, sequence.ofName name = [placed] ∧ placed.label.isWeak = true := by
  have left := ofName_labels run name
  rcases staying_one_kind stream.labels name with strong | ⟨label, single, weak⟩
  · refine .inl (fun placed member => strong _ ?_)
    rw [← left]
    exact List.mem_map_of_mem member
  · rw [single] at left
    obtain ⟨placed, alone, labelled⟩ := List.map_eq_singleton_iff.mp left
    exact .inr ⟨placed, alone, by rw [labelled, weak]⟩

/-- No name is lost. -/
theorem finalize_none_lost {name : String} {label : Label} (member : label ∈ stream.labels)
    (named : label.name = .named name) : sequence.ofName name ≠ [] := by
  intro nothing
  have left := ofName_labels run name
  rw [nothing] at left
  exact staying_ne_nil member named left.symm

end Finalized

/-! ## The whole of it -/

/-- The sequence keeps the labels of the stream that do not give way and no others, and prints
each as it is to be printed. -/
structure Settles (stream : Stream Call) (sequence : Sequence) : Prop where
  /-- Line by line, the labels of the calls that do not give way, in order. -/
  kept : sequence.map (fun line => line.labels.map PlacedLabel.label) = stream.kept
  /-- Numbers are printed as they are, weak and global labels by their names. -/
  written : ∀ placed ∈ sequence.placed, (placed.label.name.isNamed = true →
    placed.label.isWeak = true ∨ placed.label.isGlobal = true) →
      placed.rendered = placed.label.name.render
  /-- The first local label of a name is printed by the name, the others with their numbers. -/
  numbered : ∀ (name : String) (index : Nat) (placed : PlacedLabel),
    (sequence.locals name)[index]? = some placed →
      placed.rendered = if index = 0 then name else name ++ "_" ++ toString index
  one_kind : ∀ name, (∀ placed ∈ sequence.ofName name, placed.label.isWeak = false) ∨
    ∃ placed, sequence.ofName name = [placed] ∧ placed.label.isWeak = true
  none_lost : ∀ (name : String), ∀ label ∈ stream.labels, label.name = .named name →
    sequence.ofName name ≠ []

/-- **Finalizing labels.**  Whatever is drawn, a stream that is finalized keeps exactly the labels
that do not give way, each on the line of its call and in order; numbers, weak and global labels
are printed as they are written and the local ones of a name are numbered; and of each name that
is declared something is left, either strong labels only or one weak one. -/
theorem finalize_settles (stream : Stream Call) (engine after : Engine) (sequence : Sequence)
    (run : finalize stream engine = (.ok sequence, after)) : Settles stream sequence where
  kept := finalize_kept run
  written _ held written := finalize_written run held written
  numbered _ _ _ there := finalize_numbered run there
  one_kind := finalize_one_kind run
  none_lost _ _ member named := finalize_none_lost run member named

/-- Weak labels of two names, one of which is taken by local labels in two later calls. -/
def mixedLabels : Stream Call :=
  let weak (name : String) : Label := ⟨.named name, false, true, BlockId.root⟩
  let plain (name : String) : Label := ⟨.named name, false, false, BlockId.root⟩
  let three : Label := ⟨.numeric ⟨3, by decide⟩, false, false, BlockId.root⟩
  Stream.ofUnits
    [[{ name := "nop", labels := [weak "x", weak "y", three] }],
     [{ name := "nop", labels := [plain "x", weak "y"] }],
     [{ name := "nop", labels := [⟨.named "z", true, false, BlockId.root⟩, plain "x"] }]]

theorem finalize_settles_mixed :
    ∃ sequence after, finalize mixedLabels (Engine.ofSeed 1) = (.ok sequence, after) ∧
      sequence.map (fun line => line.labels.map PlacedLabel.rendered) =
        [["y", "3"], ["x"], ["z", "x_1"]] ∧
      Settles mixedLabels sequence :=
  ⟨_, _, rfl, by decide, finalize_settles mixedLabels (Engine.ofSeed 1) _ _ rfl⟩

end LabelNames
end TestProgram
