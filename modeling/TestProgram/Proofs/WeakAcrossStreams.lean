/-
# TestProgram.Proofs.WeakAcrossStreams -- weak labels beside labels of other streams

A weak label gives way in its own stream: where a strong label of its name stands in the same
sequence, the weak one is gone.  But each stream is finalized before the others are known, and
the data do not come into it at all.  So a weak label stays when the only other declarations of
its name are in other sequences, in other phases or in the data sections.

Which labels of a name are left in a sequence depends on the declarations of its stream alone
(`ofName_finalized`); here this is put together over all streams of a template.  A weak label
stands beside a strong global one or a data label of its name exactly when some stream declares
the name and declares it only as weak (`Stream.OnlyWeak`) while a stream or the data has the
other (`weak_labels_give_way_iff`).
-/
import TestProgram.Proofs.Atomicity
import TestProgram.Proofs.Generation
import TestProgram.Proofs.Operations
import TestProgram.Proofs.WeakLabels

namespace TestProgram

set_option autoImplicit false

/-! ## Declarations of a name -/

/-- The stream declares the name, and only by labels that are weak. -/
def Stream.OnlyWeak (stream : Stream Call) (name : String) : Prop :=
  (∃ label ∈ stream.emissions.flatMap Call.labels, label.name = .named name) ∧
    ∀ label ∈ stream.emissions.flatMap Call.labels, label.name = .named name →
      label.isWeak = true

/-- A global label that does not give way. -/
def Label.IsStrongGlobal (label : Label) (name : String) : Prop :=
  label.name = .named name ∧ label.isGlobal = true ∧ label.isWeak = false

def Stream.DeclaresGlobal (stream : Stream Call) (name : String) : Prop :=
  ∃ label ∈ stream.emissions.flatMap Call.labels, label.IsStrongGlobal name

/-- A weak label of the name is left in the code. -/
def Code.KeepsWeak (code : Code) (name : String) : Prop :=
  ∃ phase sequence position placed, code.Declares phase sequence position placed ∧
    placed.label.name = .named name ∧ placed.label.isWeak = true

def Code.KeepsGlobal (code : Code) (name : String) : Prop :=
  ∃ phase sequence position placed, code.Declares phase sequence position placed ∧
    placed.label.IsStrongGlobal name

/-- Some data section has a label of the name. -/
def DataNames (data : List DataSection) (name : String) : Prop :=
  ∃ region directive label, DataDeclares data region directive label ∧ label.name = .named name

namespace LabelNames

/-! ## What stays of a name -/

section Staying

variable {labels : List Label} {name : String}

theorem mem_ofName {placed : List PlacedLabel} {label : Label} :
    label ∈ ofName name placed ↔
      (∃ kept ∈ placed, kept.label = label) ∧ label.name = .named name := by
  rw [ofName, List.mem_filter, List.mem_map, beq_iff_eq]

/-- A weak label stays only where all declarations of the name are weak. -/
theorem exists_weak_staying_iff :
    (∃ label ∈ staying labels name, label.isWeak = true) ↔
      (∃ label ∈ labels, label.name = .named name) ∧
        ∀ label ∈ labels, label.name = .named name → label.isWeak = true := by
  have all_iff : (labels.filter (fun label => label.name == .named name)).all Label.isWeak =
      true ↔ ∀ label ∈ labels, label.name = .named name → label.isWeak = true := by
    rw [List.all_eq_true]
    constructor
    · intro each label listed named
      exact each label (List.mem_filter.mpr ⟨listed, beq_iff_eq.mpr named⟩)
    · intro each label declared
      obtain ⟨listed, named⟩ := List.mem_filter.mp declared
      exact each label listed (beq_iff_eq.mp named)
  rw [staying]
  by_cases all_weak : (labels.filter (fun label => label.name == .named name)).all
      Label.isWeak = true
  · rw [if_pos all_weak]
    have each := all_iff.mp all_weak
    constructor
    · rintro ⟨label, first, _⟩
      obtain ⟨listed, named⟩ := List.mem_filter.mp (List.mem_of_mem_take first)
      exact ⟨⟨label, listed, beq_iff_eq.mp named⟩, each⟩
    · rintro ⟨⟨label, listed, named⟩, _⟩
      have declared : label ∈ labels.filter (fun label => label.name == .named name) :=
        List.mem_filter.mpr ⟨listed, beq_iff_eq.mpr named⟩
      obtain ⟨first, rest, declarations⟩ :=
        List.exists_cons_of_ne_nil (List.ne_nil_of_mem declared)
      have also_declared : first ∈ labels.filter (fun label => label.name == .named name) := by
        rw [declarations]
        exact List.mem_cons_self
      obtain ⟨first_listed, first_named⟩ := List.mem_filter.mp also_declared
      refine ⟨first, ?_, each first first_listed (beq_iff_eq.mp first_named)⟩
      rw [declarations]
      exact List.mem_cons_self
  · rw [if_neg all_weak]
    constructor
    · rintro ⟨label, strong, weak⟩
      have not_weak := (List.mem_filter.mp strong).2
      rw [weak] at not_weak
      cases not_weak
    · rintro ⟨_, each⟩
      exact absurd (all_iff.mpr each) all_weak

/-- The strong labels all stay. -/
theorem mem_staying_of_strong {label : Label} (strong : label.isWeak = false) :
    label ∈ staying labels name ↔ label ∈ labels ∧ label.name = .named name := by
  rw [staying]
  by_cases all_weak : (labels.filter (fun label => label.name == .named name)).all
      Label.isWeak = true
  · rw [if_pos all_weak]
    have each := List.all_eq_true.mp all_weak
    constructor
    · intro first
      have weak := each label (List.mem_of_mem_take first)
      rw [strong] at weak
      cases weak
    · rintro ⟨listed, named⟩
      have weak := each label (List.mem_filter.mpr ⟨listed, beq_iff_eq.mpr named⟩)
      rw [strong] at weak
      cases weak
  · rw [if_neg all_weak]
    simp [List.mem_filter, strong]

end Staying

/-! ## One stream -/

section Finalized

variable {stream : Stream Call} {engine after : Engine} {sequence : Sequence}
  (run : finalize stream engine = (.ok sequence, after)) (name : String)

include run

theorem keeps_weak_iff :
    (∃ placed ∈ sequence.flatMap Instruction.labels,
      placed.label.name = .named name ∧ placed.label.isWeak = true) ↔ stream.OnlyWeak name := by
  rw [Stream.OnlyWeak, ← exists_weak_staying_iff, ← ofName_finalized run]
  simp only [mem_ofName]
  constructor
  · rintro ⟨placed, printed, named, weak⟩
    exact ⟨placed.label, ⟨⟨placed, printed, rfl⟩, named⟩, weak⟩
  · rintro ⟨_, ⟨⟨placed, printed, rfl⟩, named⟩, weak⟩
    exact ⟨placed, printed, named, weak⟩

theorem keeps_global_iff :
    (∃ placed ∈ sequence.flatMap Instruction.labels, placed.label.IsStrongGlobal name) ↔
      stream.DeclaresGlobal name := by
  have stays : ∀ label : Label, label.isWeak = false →
      (label ∈ ofName name (sequence.flatMap Instruction.labels) ↔
        label ∈ stream.emissions.flatMap Call.labels ∧ label.name = .named name) := by
    intro label strong
    rw [ofName_finalized run]
    exact mem_staying_of_strong strong
  constructor
  · rintro ⟨placed, printed, named, visible, strong⟩
    have left := mem_ofName.mpr ⟨⟨placed, printed, rfl⟩, named⟩
    exact ⟨placed.label, ((stays _ strong).mp left).1, named, visible, strong⟩
  · rintro ⟨label, listed, named, visible, strong⟩
    obtain ⟨⟨placed, printed, rfl⟩, _⟩ :=
      mem_ofName.mp ((stays label strong).mpr ⟨listed, named⟩)
    exact ⟨placed, printed, named, visible, strong⟩

/-- In its own stream a weak label gives way to any strong one. -/
theorem weak_gives_way {weak strong : PlacedLabel}
    (printed : weak ∈ sequence.flatMap Instruction.labels)
    (also_printed : strong ∈ sequence.flatMap Instruction.labels)
    (named : weak.label.name = .named name) (also_named : strong.label.name = .named name)
    (yields : weak.label.isWeak = true) : strong.label.isWeak = true := by
  have only_weak := (keeps_weak_iff run name).mp ⟨weak, printed, named, yields⟩
  by_contra not_weak
  have not_weak : strong.label.isWeak = false := by simpa using not_weak
  have left := mem_ofName.mpr ⟨⟨strong, also_printed, rfl⟩, also_named⟩
  rw [ofName_finalized run, mem_staying_of_strong not_weak] at left
  have weak_too := only_weak.2 strong.label left.1 also_named
  rw [not_weak] at weak_too
  cases weak_too

end Finalized

end LabelNames

/-! ## The streams of a phase -/

/-- The tree of the phase expands to these streams, and its sequences are the finalized
streams, perhaps with bound operands. -/
structure Phase.MadeFrom (phase : Phase) (streams : List (Stream Call)) : Prop where
  expanded : ∃ registry engine,
    Expansion.streamsAt registry phase.block.toTree engine [] = some streams
  finalized : List.Forall₂ (fun stream lines => ∃ before after result,
    finalize stream before = (.ok result, after) ∧ lines = result.map Instruction.unbound)
      streams (phase.sequences.map (List.map Instruction.unbound))

namespace Phase.MadeFrom

variable {phase : Phase} {streams : List (Stream Call)}

theorem of_ends {session : Session} {kind : PhaseKind} {block : OpenBlock}
    (ends : Session.EndsAs session kind block phase) : ∃ streams, phase.MadeFrom streams := by
  obtain ⟨_, generated⟩ := ends.generated
  obtain ⟨streams, expanded, finalized⟩ := Expansion.generateSequences_ok generated
  refine ⟨streams, ⟨_, _, expanded⟩, List.forall₂_map_right_iff.mpr (finalized.imp ?_)⟩
  rintro stream sequence ⟨before, after, run⟩
  exact ⟨before, after, sequence, run, rfl⟩

/-- Binding the operands of a phase keeps the streams that it was made from. -/
theorem bound {linked : Phase} {index : LabelIndex} (made : phase.MadeFrom streams)
    (bound : index.bindPhase phase = .ok linked) : linked.MadeFrom streams := by
  have unbound := LabelIndex.bindPhase_unbound bound
  have block : linked.block = phase.block := by
    obtain ⟨_, _, same⟩ := Except.bind_ok_iff.mp bound
    cases same
    rfl
  exact ⟨block ▸ made.expanded, unbound ▸ made.finalized⟩

/-- The labels of the sequences are those that are left of the streams. -/
theorem labels (made : phase.MadeFrom streams) :
    List.Forall₂ (fun stream (sequence : Sequence) => ∃ before after result,
      finalize stream before = (.ok result, after) ∧
        sequence.flatMap Instruction.labels = result.flatMap Instruction.labels)
      streams phase.sequences := by
  refine (List.forall₂_map_right_iff.mp made.finalized).imp ?_
  rintro stream sequence ⟨before, after, result, run, same⟩
  have of_unbound : ∀ lines : Sequence, lines.flatMap Instruction.labels =
      (lines.map Instruction.unbound).flatMap Instruction.labels := by
    intro lines
    rw [List.flatMap_map]
    rfl
  refine ⟨before, after, result, run, ?_⟩
  rw [of_unbound sequence, same, ← of_unbound result]

/-- What is left of a stream stands in the phase, and nothing else. -/
theorem exists_sequence_iff {left : Sequence → Prop} {declared : Stream Call → Prop}
    (made : phase.MadeFrom streams)
    (each : ∀ {stream before after result}, finalize stream before = (.ok result, after) →
      ∀ sequence : Sequence, sequence.flatMap Instruction.labels =
        result.flatMap Instruction.labels → (left sequence ↔ declared stream)) :
    (∃ sequence ∈ phase.sequences, left sequence) ↔ ∃ stream ∈ streams, declared stream := by
  constructor
  · rintro ⟨sequence, member, holds⟩
    obtain ⟨stream, listed, before, after, result, run, same⟩ :=
      Paired.exists_partner made.labels sequence member
    exact ⟨stream, listed, (each run sequence same).mp holds⟩
  · rintro ⟨stream, listed, holds⟩
    obtain ⟨sequence, member, before, after, result, run, same⟩ :=
      Paired.exists_partner made.labels.flip stream listed
    exact ⟨sequence, member, (each run sequence same).mpr holds⟩

end Phase.MadeFrom

theorem Template.generate_madeFrom {ε : Type} {template : Template ε} {studio after : Studio ε}
    {generated : Generated} (run : template.generate studio = (.ok generated, after)) :
    ∃ streams : PhaseKind → List (Stream Call),
      ∀ kind, (generated.phase kind).MadeFrom (streams kind) := by
  obtain ⟨program, middle, program_run, linked⟩ := Computation.bind_ok_iff.mp run
  have bound := (Session.link_ok (Act.session_ok linked)).1
  have each : ∀ kind, ∃ streams, (generated.phase kind).MadeFrom streams := by
    intro kind
    obtain ⟨_, _, ends⟩ := Template.program_ends program_run kind
    obtain ⟨streams, made⟩ := Phase.MadeFrom.of_ends ends
    exact ⟨streams, made.bound (bound kind)⟩
  exact Classical.skolem.mp each

/-! ## Templates -/

/-- Declarations of the code are labels of the lines of its sequences. -/
theorem Code.exists_declares_iff {code : Code} {fits : PlacedLabel → Prop} :
    (∃ phase sequence position placed,
      code.Declares phase sequence position placed ∧ fits placed) ↔
      ∃ phase, ∃ instructions ∈ code phase,
        ∃ placed ∈ instructions.flatMap Instruction.labels, fits placed := by
  constructor
  · rintro ⟨phase, sequence, position, placed, ⟨line, found, held⟩, holds⟩
    obtain ⟨instructions, here, there⟩ := Option.bind_eq_some_iff.mp found
    exact ⟨phase, instructions, List.mem_of_getElem? here, placed,
      List.mem_flatMap.mpr ⟨line, List.mem_of_getElem? there, held⟩, holds⟩
  · rintro ⟨phase, instructions, member, placed, printed, holds⟩
    obtain ⟨line, listed, held⟩ := List.mem_flatMap.mp printed
    obtain ⟨sequence, here⟩ := List.mem_iff_getElem?.mp member
    obtain ⟨position, there⟩ := List.mem_iff_getElem?.mp listed
    exact ⟨phase, sequence, position, placed,
      ⟨line, Option.bind_eq_some_iff.mpr ⟨instructions, here, there⟩, held⟩, holds⟩

/-- What the streams of a template leave of a name. -/
structure LeavesOf (generated : Generated) (streams : PhaseKind → List (Stream Call))
    (name : String) : Prop where
  weak : generated.code.KeepsWeak name ↔
    ∃ phase, ∃ stream ∈ streams phase, stream.OnlyWeak name
  strong : generated.code.KeepsGlobal name ↔
    ∃ phase, ∃ stream ∈ streams phase, stream.DeclaresGlobal name

theorem leavesOf {generated : Generated} {streams : PhaseKind → List (Stream Call)}
    (made : ∀ kind, (generated.phase kind).MadeFrom (streams kind)) (name : String) :
    LeavesOf generated streams name := by
  constructor
  · rw [Code.KeepsWeak, Code.exists_declares_iff]
    refine exists_congr (fun phase => (made phase).exists_sequence_iff ?_)
    intro stream before after result run sequence same
    rw [same]
    exact LabelNames.keeps_weak_iff run name
  · rw [Code.KeepsGlobal, Code.exists_declares_iff]
    refine exists_congr (fun phase => (made phase).exists_sequence_iff ?_)
    intro stream before after result run sequence same
    rw [same]
    exact LabelNames.keeps_global_iff run name

/-- **Where weak labels give way.**  In each sequence of a generated template a weak label is
left only if no strong label of its name is.  Over the whole template weak labels give way to
global labels and to data labels exactly when no name that one stream declares only as weak is
declared global by another stream, of any phase, or is a label of the data. -/
theorem weak_labels_give_way_iff {ε : Type} (template : Template ε) (studio after : Studio ε)
    (generated : Generated) (run : template.generate studio = (.ok generated, after)) :
    (∀ phase sequence position place weak strong name,
      generated.code.Declares phase sequence position weak →
      generated.code.Declares phase sequence place strong →
      weak.label.name = .named name → strong.label.name = .named name →
      weak.label.isWeak = true → strong.label.isWeak = true) ∧
    ∃ streams : PhaseKind → List (Stream Call),
      (∀ kind, (generated.phase kind).MadeFrom (streams kind)) ∧
      (∀ name, LeavesOf generated streams name) ∧
      ((∀ name, generated.code.KeepsWeak name →
          ¬ generated.code.KeepsGlobal name ∧ ¬ DataNames generated.data name) ↔
        ∀ phase, ∀ stream ∈ streams phase, ∀ name, stream.OnlyWeak name →
          (∀ other, ∀ beside ∈ streams other, ¬ beside.DeclaresGlobal name) ∧
            ¬ DataNames generated.data name) := by
  obtain ⟨streams, made⟩ := Template.generate_madeFrom run
  have leaves := leavesOf made
  refine ⟨?_, streams, made, leaves, ?_⟩
  · rintro phase sequence position place weak strong name ⟨line, found, held⟩
      ⟨other, also_found, also_held⟩ named also_named yields
    obtain ⟨instructions, here, there⟩ := Option.bind_eq_some_iff.mp found
    obtain ⟨same, also_here, also_there⟩ := Option.bind_eq_some_iff.mp also_found
    obtain rfl := Option.some.inj (here.symm.trans also_here)
    obtain ⟨stream, _, before, last, result, finalized, labels⟩ :=
      Paired.exists_partner (made phase).labels instructions (List.mem_of_getElem? here)
    have printed : weak ∈ result.flatMap Instruction.labels :=
      labels ▸ List.mem_flatMap.mpr ⟨line, List.mem_of_getElem? there, held⟩
    have also_printed : strong ∈ result.flatMap Instruction.labels :=
      labels ▸ List.mem_flatMap.mpr ⟨other, List.mem_of_getElem? also_there, also_held⟩
    exact LabelNames.weak_gives_way finalized name printed also_printed named also_named yields
  · constructor
    · intro gives_way phase stream listed name only_weak
      obtain ⟨no_global, no_data⟩ :=
        gives_way name ((leaves name).weak.mpr ⟨phase, stream, listed, only_weak⟩)
      refine ⟨fun other beside also_listed declares => no_global ?_, no_data⟩
      exact (leaves name).strong.mpr ⟨other, beside, also_listed, declares⟩
    · intro apart name keeps
      obtain ⟨phase, stream, listed, only_weak⟩ := (leaves name).weak.mp keeps
      obtain ⟨no_global, no_data⟩ := apart phase stream listed name only_weak
      refine ⟨fun keeps_global => ?_, no_data⟩
      obtain ⟨other, beside, also_listed, declares⟩ := (leaves name).strong.mp keeps_global
      exact no_global other beside also_listed declares

/-- A label `start` and the call that it stands before. -/
def started (declaration : Declaration) : Act Unit Unit := Act.session do
  declaration.perform (.caller "start" 1 1)
  Session.addCall { name := "nop" } (.caller "start" 2 1)

/-- A weak label and a global one of the same name in one phase. -/
def startedTogether : Template Unit where
  pre := pure ()
  main := do
    started (.weakLabel "start")
    started (.globalLabel "start")
  post := pure ()

/-- The same labels in two phases. -/
def startedApart : Template Unit where
  pre := started (.weakLabel "start")
  main := started (.globalLabel "start")
  post := pure ()

/-- The labels of a line of the first sequence of a phase. -/
def labelsAt (template : Template Unit) (phase : PhaseKind) (position : Nat) :
    Option (List PlacedLabel) :=
  match template.generate ⟨Session.new {}, ()⟩ with
  | (.ok generated, _) => (generated.code.line? phase 0 position).map Instruction.labels
  | (.error _, _) => none

theorem declares_of_labelsAt {template : Template Unit} {generated : Generated}
    {after : Studio Unit} {phase : PhaseKind} {position : Nat} {placed : PlacedLabel}
    (run : template.generate ⟨Session.new {}, ()⟩ = (.ok generated, after))
    (read : labelsAt template phase position = some [placed]) :
    generated.code.Declares phase 0 position placed := by
  rw [labelsAt, run] at read
  obtain ⟨line, found, labels⟩ := Option.map_eq_some_iff.mp read
  exact ⟨line, found, labels ▸ List.mem_singleton_self placed⟩

/-- Where both labels are in one phase, the weak one is gone. -/
theorem weak_labels_give_way_iff_together :
    ∃ generated after,
      startedTogether.generate ⟨Session.new {}, ()⟩ = (.ok generated, after) ∧
      ∀ position placed, generated.code.Declares .main 0 position placed →
        placed.label.name = .named "start" → placed.label.isWeak = false := by
  obtain ⟨generated, after, run⟩ : ∃ generated after,
      startedTogether.generate ⟨Session.new {}, ()⟩ = (.ok generated, after) :=
    Act.exists_ok (by decide +kernel)
  refine ⟨generated, after, run, ?_⟩
  have strong : generated.code.Declares .main 0 1
      ⟨{ name := .named "start", isGlobal := true, scope := BlockId.root }, "start"⟩ :=
    declares_of_labelsAt run (by decide +kernel)
  intro position placed declares named
  by_contra not_strong
  have yields : placed.label.isWeak = true := by simpa using not_strong
  have weak_too := (weak_labels_give_way_iff _ _ after generated run).1 .main 0 position 1 placed _
    "start" declares strong named rfl yields
  cases weak_too

/-- A weak label of one phase is left beside a global one of another. -/
theorem weak_label_left_beside_global :
    ¬ ∀ (template : Template Unit) (studio after : Studio Unit) (generated : Generated),
      template.generate studio = (.ok generated, after) →
      ∀ name, generated.code.KeepsWeak name →
        ¬ generated.code.KeepsGlobal name ∧ ¬ DataNames generated.data name := by
  intro always
  obtain ⟨generated, after, run⟩ : ∃ generated after,
      startedApart.generate ⟨Session.new {}, ()⟩ = (.ok generated, after) :=
    Act.exists_ok (by decide +kernel)
  have weak : generated.code.Declares .pre 0 0
      ⟨{ name := .named "start", isWeak := true, scope := BlockId.root }, "start"⟩ :=
    declares_of_labelsAt run (by decide +kernel)
  have strong : generated.code.Declares .main 0 0
      ⟨{ name := .named "start", isGlobal := true, scope := BlockId.root }, "start"⟩ :=
    declares_of_labelsAt run (by decide +kernel)
  apply (always _ _ after generated run "start" ⟨.pre, 0, 0, _, weak, rfl, rfl⟩).1
  exact ⟨.main, 0, 0, _, strong, rfl, rfl, rfl⟩

end TestProgram
