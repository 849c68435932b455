/-
# TestProgram.Proofs.Generation -- all references of a template, or a resolution fault

When the three phases of a template have run and its global labels are registered, what is
left is to bind the references (`Session.link`).  Whether this succeeds does not depend on
the session any more: it comes down to binding each sequence on its own
(`Session.linkPhase_outcome`), and the index that is used knows the labels of all of them
(`Template.program_knows`).  `generate_resolves` says what this means for a template.
-/
import TestProgram.Proofs.PhaseRuns
import TestProgram.Proofs.Resolution
import TestProgram.Session.Calls
import TestProgram.Template

namespace TestProgram

set_option autoImplicit false

/-! ## Programs -/

def Program.phase (program : Program) : PhaseKind → Phase
  | .pre => program.pre
  | .main => program.main
  | .post => program.post

def Program.code (program : Program) : Code :=
  fun kind => (program.phase kind).sequences

def Generated.phase (generated : Generated) : PhaseKind → Phase
  | .pre => generated.pre
  | .main => generated.main
  | .post => generated.post

def Generated.code (generated : Generated) : Code :=
  fun kind => (generated.phase kind).sequences

theorem Session.register_ok {pre main post : Phase} {session after : Session} {program : Program}
    (run : Session.register pre main post session = (.ok program, after)) :
    program.pre = pre ∧ program.main = main ∧ program.post = post ∧
      LabelIndex.ofAll (dataLabels program.data) (program.phases.flatMap Phase.numbered) =
        .ok program.index := by
  obtain ⟨_, finished, _, run⟩ := Computation.bind_ok_iff.mp run
  obtain ⟨_, _, here, run⟩ := Computation.bind_ok_iff.mp run
  cases here
  by_cases open_region : finished.data.isOpen = true
  · simp only [if_pos open_region] at run
    obtain ⟨_, _, failed, _⟩ := Computation.bind_ok_iff.mp run
    cases failed
  · simp only [if_neg open_region] at run
    obtain ⟨data, _, _, run⟩ := Computation.bind_ok_iff.mp run
    obtain ⟨index, _, indexed, run⟩ := Computation.bind_ok_iff.mp run
    cases run
    exact ⟨rfl, rfl, rfl, congrArg Prod.fst indexed⟩

/-- The three phases of a template, one after another. -/
def Template.phases {ε : Type} (template : Template ε) : Act ε (Phase × Phase × Phase) := do
  Act.session (do Action.remark (.generating (← get).settings.seed))
  let pre ← Act.runPhase .pre template.pre
  let main ← Act.runPhase .main template.main
  let post ← Act.runPhase .post template.post
  pure (pre, main, post)

/-- A program is what is registered when the three phases have run. -/
theorem Template.program_run {ε : Type} (template : Template ε) (studio : Studio ε) :
    template.program studio =
      match template.phases studio with
      | (.ok (pre, main, post), after) => Act.session (Session.register pre main post) after
      | (.error fault, after) => (.error fault, after) := by
  simp only [Template.program, Template.phases, Computation.bind_run]
  rcases Act.session (do Action.remark (.generating (← get).settings.seed)) studio with
    ⟨_ | _, first⟩
  · rfl
  · dsimp only
    rcases Act.runPhase .pre template.pre first with ⟨_ | pre, second⟩
    · rfl
    · dsimp only
      rcases Act.runPhase .main template.main second with ⟨_ | main, third⟩
      · rfl
      · dsimp only
        rcases Act.runPhase .post template.post third with ⟨_ | post, last⟩
        · rfl
        · rfl

/-- Each of the three is the end of a phase of its kind. -/
theorem Template.phases_ok {ε : Type} {template : Template ε} {studio after : Studio ε}
    {pre main post : Phase} (run : template.phases studio = (.ok (pre, main, post), after)) :
    (∃ session block, Session.EndsAs session .pre block pre) ∧
      (∃ session block, Session.EndsAs session .main block main) ∧
      ∃ session block, Session.EndsAs session .post block post := by
  obtain ⟨_, _, _, run⟩ := Computation.bind_ok_iff.mp run
  obtain ⟨_, _, pre_run, run⟩ := Computation.bind_ok_iff.mp run
  obtain ⟨_, _, main_run, run⟩ := Computation.bind_ok_iff.mp run
  obtain ⟨_, _, post_run, run⟩ := Computation.bind_ok_iff.mp run
  cases run
  obtain ⟨_, _, block, _, _, pre_ends⟩ := Act.runPhase_ok pre_run
  obtain ⟨_, _, block, _, _, main_ends⟩ := Act.runPhase_ok main_run
  obtain ⟨_, _, block, _, _, post_ends⟩ := Act.runPhase_ok post_run
  exact ⟨⟨_, _, pre_ends⟩, ⟨_, _, main_ends⟩, ⟨_, _, post_ends⟩⟩

theorem Template.program_ends {ε : Type} {template : Template ε} {studio after : Studio ε}
    {program : Program} (run : template.program studio = (.ok program, after)) (kind : PhaseKind) :
    ∃ session block, Session.EndsAs session kind block (program.phase kind) := by
  rw [Template.program_run] at run
  rcases phases : template.phases studio with ⟨_ | ⟨pre, main, post⟩, middle⟩
  · rw [phases] at run
    cases run
  · rw [phases] at run
    obtain ⟨pre_is, main_is, post_is, _⟩ := Session.register_ok (Act.session_ok run)
    obtain ⟨pre_ends, main_ends, post_ends⟩ := Template.phases_ok phases
    cases kind with
    | pre =>
        rw [Program.phase, pre_is]
        exact pre_ends
    | main =>
        rw [Program.phase, main_is]
        exact main_ends
    | post =>
        rw [Program.phase, post_is]
        exact post_ends

/-- The phases of a program are what they are called, and its index was made from them and
from its data. -/
theorem Template.program_ok {ε : Type} {template : Template ε} {studio after : Studio ε}
    {program : Program} (run : template.program studio = (.ok program, after)) :
    (∀ kind, (program.phase kind).kind = kind) ∧
      LabelIndex.ofAll (dataLabels program.data) (program.phases.flatMap Phase.numbered) =
        .ok program.index := by
  constructor
  · intro kind
    obtain ⟨_, _, ends⟩ := Template.program_ends run kind
    exact ends.named
  · rw [Template.program_run] at run
    rcases phases : template.phases studio with ⟨_ | ⟨pre, main, post⟩, middle⟩
    · rw [phases] at run
      cases run
    · rw [phases] at run
      exact (Session.register_ok (Act.session_ok run)).2.2.2

/-! ## What the index of a program knows -/

theorem mem_dataLabels {data : List DataSection} {label : Label} {target : LabelTarget} :
    (label, target) ∈ dataLabels data ↔
      ∃ region directive, target = .data region directive ∧
        DataDeclares data region directive label := by
  simp only [dataLabels, List.mem_flatMap, List.mem_map, Prod.exists, Prod.mk.injEq,
    List.mem_zipIdx_iff_getElem?, DataSection.labels, List.mem_filterMap, DataDeclares]
  constructor
  · rintro ⟨held, region, found, directive, other, ⟨written, place, there, same⟩, rfl, rfl⟩
    cases written with
    | label label =>
        cases same
        exact ⟨region, directive, rfl, held, found, there⟩
    | _ => cases same
  · rintro ⟨region, directive, rfl, held, found, there⟩
    exact ⟨held, region, found, directive, label, ⟨.label label, directive, there, rfl⟩, rfl, rfl⟩

theorem Program.mem_numbered {program : Program} (kinds : ∀ kind, (program.phase kind).kind = kind)
    {sequence : NumberedSequence} :
    sequence ∈ program.phases.flatMap Phase.numbered ↔
      (program.code sequence.phase)[sequence.number]? = some sequence.instructions := by
  have phases : ∀ phase, phase ∈ program.phases ↔ ∃ kind, phase = program.phase kind := by
    intro phase
    simp only [Program.phases, List.mem_cons, List.not_mem_nil, or_false]
    constructor
    · rintro (rfl | rfl | rfl)
      · exact ⟨.pre, rfl⟩
      · exact ⟨.main, rfl⟩
      · exact ⟨.post, rfl⟩
    · rintro ⟨kind, rfl⟩
      cases kind with
      | pre => exact .inl rfl
      | main => exact .inr (.inl rfl)
      | post => exact .inr (.inr rfl)
  simp only [List.mem_flatMap, phases, Phase.numbered, List.mem_map, Prod.exists,
    List.mem_zipIdx_iff_getElem?]
  constructor
  · rintro ⟨_, ⟨kind, rfl⟩, instructions, number, found, rfl⟩
    rw [kinds kind]
    exact found
  · intro found
    refine ⟨_, ⟨sequence.phase, rfl⟩, sequence.instructions, sequence.number, found, ?_⟩
    rw [kinds]

theorem globals_iff {code : Code} {phase : PhaseKind} {sequence : Nat} {instructions : Sequence}
    (here : (code phase)[sequence]? = some instructions) {name : String} {target : LabelTarget} :
    LabelIndex.Globals instructions (.code phase sequence) name target ↔
      ∃ position placed, code.Declares phase sequence position placed ∧
        placed.label.isGlobal = true ∧ name = placed.rendered ∧
        target = .code phase sequence position := by
  simp only [LabelIndex.Globals, LabelIndex.globalLabels, LabelIndex.Entry, List.mem_filter,
    Code.Declares, Code.line?, here, Option.bind_some]
  constructor
  · rintro ⟨position, line, found, placed, ⟨held, visible⟩, named, rfl⟩
    exact ⟨position, placed, ⟨line, found, held⟩, visible, named, rfl⟩
  · rintro ⟨position, placed, ⟨line, found, held⟩, visible, named, rfl⟩
    exact ⟨position, line, found, placed, ⟨held, visible⟩, named, rfl⟩

/-- The index of a program knows the labels of its code and its data. -/
theorem Template.program_knows {ε : Type} {template : Template ε} {studio after : Studio ε}
    {program : Program} (run : template.program studio = (.ok program, after)) :
    program.index.Knows program.code program.data := by
  obtain ⟨kinds, indexed⟩ := Template.program_ok run
  refine (LabelIndex.ofAll_grows indexed).congr (fun name target => ?_) (fun name target => ?_)
  · constructor
    · rintro (⟨⟨label, _⟩, member, visible, rfl, rfl⟩ | ⟨sequence, member, declared⟩)
      · obtain ⟨region, directive, rfl, declared⟩ := mem_dataLabels.mp member
        exact .data declared visible
      · have here := (Program.mem_numbered kinds).mp member
        obtain ⟨position, placed, there, visible, rfl, rfl⟩ := (globals_iff here).mp declared
        exact .code there visible
    · intro known
      cases known with
      | @data region directive label declared visible =>
          exact .inl ⟨(label, .data region directive),
            mem_dataLabels.mpr ⟨region, directive, rfl, declared⟩, visible, rfl, rfl⟩
      | @code phase number position placed declared visible =>
          obtain ⟨line, found, held⟩ := declared
          obtain ⟨instructions, here, there⟩ := Option.bind_eq_some_iff.mp found
          refine .inr ⟨⟨phase, number, instructions⟩, (Program.mem_numbered kinds).mpr here, ?_⟩
          exact (globals_iff here).mpr
            ⟨position, placed, ⟨line, found, held⟩, visible, rfl, rfl⟩
  · constructor
    · rintro ⟨⟨label, _⟩, member, rfl, rfl⟩
      obtain ⟨region, directive, rfl, declared⟩ := mem_dataLabels.mp member
      exact ⟨declared⟩
    · rintro ⟨declared⟩
      exact ⟨(_, _), mem_dataLabels.mpr ⟨_, _, rfl, declared⟩, rfl, rfl⟩

/-! ## Linking -/

/-- The phase with its operands bound. -/
def LabelIndex.bindPhase (index : LabelIndex) (phase : Phase) : Except Fault Phase := do
  let sequences ← phase.numbered.mapM (fun sequence =>
    index.resolve sequence.phase sequence.number sequence.instructions)
  .ok { phase with sequences }

/-- Linking a phase comes to what binding its sequences comes to, whatever the session. -/
theorem Session.linkPhase_outcome (index : LabelIndex) (phase : Phase) (session : Session) :
    (Session.linkPhase index phase session).1 = index.bindPhase phase := by
  have link : ∀ sequence engine, (index.link sequence engine).1 =
      index.resolve sequence.phase sequence.number sequence.instructions := by
    intro sequence engine
    have remarked : ∀ (instructions : Sequence) (engine : Engine),
        ((do
          (LabelIndex.remarks instructions).forM Generation.remark
          pure instructions : Generation Sequence) engine).1 = .ok instructions := by
      intro instructions engine
      have done : ((LabelIndex.remarks instructions).forM Generation.remark engine).1 = .ok () :=
        Computation.forM_ok (fun _ _ => rfl) _ _
      rw [Computation.bind_run]
      rcases ran : (LabelIndex.remarks instructions).forM Generation.remark engine with
        ⟨outcome, after⟩
      rw [ran] at done
      cases done
      rfl
    rw [LabelIndex.link]
    cases resolved : index.resolve sequence.phase sequence.number sequence.instructions with
    | error fault => rfl
    | ok instructions => exact remarked instructions engine
  have walk : (Action.generation (phase.numbered.mapM index.link) session).1 =
      phase.numbered.mapM (fun sequence =>
        index.resolve sequence.phase sequence.number sequence.instructions) :=
    Computation.mapM_outcome link phase.numbered session.engine
  exact Computation.bind_outcome walk (fun _ _ => rfl)

section Phases

variable {index : LabelIndex} {phase linked : Phase}

/-- Every sequence of a bound phase is the bound one of its number. -/
theorem LabelIndex.bindPhase_ok (bound : index.bindPhase phase = .ok linked) :
    List.Forall₂ (fun (entry : Sequence × Nat) results =>
      index.resolve phase.kind entry.2 entry.1 = .ok results)
      phase.sequences.zipIdx linked.sequences := by
  obtain ⟨sequences, walked, bound⟩ := Except.bind_ok_iff.mp bound
  cases bound
  have paired := Except.mapM_ok_iff.mp walked
  rwa [Phase.numbered, List.forall₂_map_left_iff] at paired

theorem LabelIndex.bindPhase_ok_iff :
    (∃ linked, index.bindPhase phase = .ok linked) ↔
      ∀ number instructions, phase.sequences[number]? = some instructions →
        ∃ results, index.resolve phase.kind number instructions = .ok results := by
  rw [LabelIndex.bindPhase, Except.exists_bind_ok_iff, Except.exists_mapM_ok_iff, Phase.numbered]
  simp only [List.forall_mem_map, Prod.forall, List.mem_zipIdx_iff_getElem?]
  constructor
  · intro each number instructions found
    exact each instructions number found
  · intro each instructions number found
    exact each number instructions found

theorem LabelIndex.bindPhase_error {fault : Fault} (failed : index.bindPhase phase = .error fault) :
    fault.kind = .resolution := by
  obtain ⟨sequence, _, here⟩ := Except.mapM_error (Except.bind_ok_error_iff.mp failed)
  exact LabelIndex.resolve_error here

/-- Binding changes nothing but where operands are bound to. -/
theorem LabelIndex.bindPhase_unbound (bound : index.bindPhase phase = .ok linked) :
    linked.sequences.map (List.map Instruction.unbound) =
      phase.sequences.map (List.map Instruction.unbound) := by
  have paired := LabelIndex.bindPhase_ok bound
  have same := Paired.map_eq
    (f := fun (entry : Sequence × Nat) => entry.1.map Instruction.unbound)
    (paired.imp (fun _ _ here => (LabelIndex.resolve_ok here).1))
  rw [same]
  conv_rhs => rw [← List.zipIdx_map_fst 0 phase.sequences]
  rw [List.map_map]
  rfl

end Phases

section Linked

variable {program : Program} {session : Session}

theorem Session.link_ok {generated : Generated} {after : Session}
    (run : Session.link program session = (.ok generated, after)) :
    (∀ kind, program.index.bindPhase (program.phase kind) = .ok (generated.phase kind)) ∧
      generated.data = program.data := by
  obtain ⟨pre, _, pre_run, run⟩ := Computation.bind_ok_iff.mp run
  obtain ⟨main, _, main_run, run⟩ := Computation.bind_ok_iff.mp run
  obtain ⟨post, _, post_run, run⟩ := Computation.bind_ok_iff.mp run
  cases run
  refine ⟨fun kind => ?_, rfl⟩
  cases kind with
  | pre => exact (Session.linkPhase_outcome _ _ _).symm.trans (congrArg Prod.fst pre_run)
  | main => exact (Session.linkPhase_outcome _ _ _).symm.trans (congrArg Prod.fst main_run)
  | post => exact (Session.linkPhase_outcome _ _ _).symm.trans (congrArg Prod.fst post_run)

/-- Linking fails where binding one of the phases fails, and nowhere else. -/
theorem Session.link_cases (program : Program) (session : Session) :
    (∃ generated after, Session.link program session = (.ok generated, after)) ∨
      ∃ fault after kind, Session.link program session = (.error fault, after) ∧
        program.index.bindPhase (program.phase kind) = .error fault := by
  have bound : ∀ phase {session after : Session} {outcome : Except Fault Phase},
      Session.linkPhase program.index phase session = (outcome, after) →
        program.index.bindPhase phase = outcome := by
    intro phase session after outcome run
    rw [← Session.linkPhase_outcome program.index phase session, run]
  simp only [Session.link, Computation.bind_run]
  rcases pre_run : Session.linkPhase program.index program.pre session with ⟨fault | pre, second⟩
  · exact .inr ⟨fault, second, .pre, rfl, bound _ pre_run⟩
  · rcases main_run : Session.linkPhase program.index program.main second with ⟨fault | main, third⟩
    · exact .inr ⟨fault, third, .main, by simp only [main_run], bound _ main_run⟩
    · rcases post_run : Session.linkPhase program.index program.post third with ⟨fault | post, last⟩
      · exact .inr ⟨fault, last, .post, by simp only [main_run, post_run], bound _ post_run⟩
      · simp only [main_run, post_run]
        exact .inl ⟨_, last, rfl⟩

end Linked

/-! ## The same declarations -/

section Unbound

variable {code other : Code} {data : List DataSection} {phase : PhaseKind}
  {sequence position : Nat}

/-- Code that differs in where its operands are bound to declares the same labels. -/
theorem Code.Declares.of_unbound {placed : PlacedLabel}
    (same : ∀ kind, (code kind).map (List.map Instruction.unbound) =
      (other kind).map (List.map Instruction.unbound))
    (declared : code.Declares phase sequence position placed) :
    other.Declares phase sequence position placed := by
  have unbound_line : ∀ any : Code, (any.line? phase sequence position).map Instruction.unbound =
      (((any phase).map (List.map Instruction.unbound))[sequence]?).bind
        (fun instructions => instructions[position]?) := by
    intro any
    rw [Code.line?, List.getElem?_map]
    cases (any phase)[sequence]? with
    | none => rfl
    | some instructions => simp
  obtain ⟨line, found, held⟩ := declared
  have lines : (code.line? phase sequence position).map Instruction.unbound =
      (other.line? phase sequence position).map Instruction.unbound := by
    rw [unbound_line code, unbound_line other, same phase]
  rw [found, Option.map_some] at lines
  obtain ⟨there, found_there, unbound⟩ := Option.map_eq_some_iff.mp lines.symm
  refine ⟨there, found_there, ?_⟩
  have labels : there.unbound.labels = line.unbound.labels := by rw [unbound]
  exact labels ▸ held

/-- Code that declares the same labels has the same global ones. -/
theorem GlobalLabel.congr {name : String} {target : LabelTarget}
    (declares : ∀ {phase sequence position placed},
      code.Declares phase sequence position placed ↔
        other.Declares phase sequence position placed) :
    GlobalLabel code data name target ↔ GlobalLabel other data name target := by
  constructor
  · rintro (⟨declared, visible⟩ | ⟨declared, visible⟩)
    · exact .code (declares.mp declared) visible
    · exact .data declared visible
  · rintro (⟨declared, visible⟩ | ⟨declared, visible⟩)
    · exact .code (declares.mpr declared) visible
    · exact .data declared visible

theorem Eligible.congr {reference : LabelReference} {label : ResolvedLabel}
    (declares : ∀ {phase sequence position placed},
      code.Declares phase sequence position placed ↔ other.Declares phase sequence position placed)
    (eligible : Eligible code data phase sequence position reference label) :
    Eligible other data phase sequence position reference label := by
  have sight : ∀ {reference place placed},
      InSight code phase sequence position reference place placed ↔
        InSight other phase sequence position reference place placed :=
    fun {_ _ _} => and_congr declares Iff.rfl
  have global : ∀ {name target}, GlobalLabel code data name target ↔
      GlobalLabel other data name target :=
    GlobalLabel.congr declares
  cases eligible with
  | near seen => exact .near (sight.mp seen)
  | global alone declared =>
      exact .global (fun place placed seen => alone place placed (sight.mpr seen))
        (global.mp declared)
  | data alone no_global declared =>
      exact .data (fun place placed seen => alone place placed (sight.mpr seen))
        (fun elsewhere held => no_global elsewhere (global.mpr held)) declared

end Unbound

/-! ## Templates -/

section Knowing

variable {program : Program} (kinds : ∀ kind, (program.phase kind).kind = kind)
  (knows : program.index.Knows program.code program.data)

include kinds knows

/-- A phase of a program can be bound exactly when each of its references may mean something. -/
theorem Program.bindPhase_ok_iff (kind : PhaseKind) :
    (∃ linked, program.index.bindPhase (program.phase kind) = .ok linked) ↔
      ∀ sequence position reference bound,
        program.code.Refers kind sequence position reference bound →
        ∃ label, Eligible program.code program.data kind sequence position reference label := by
  rw [LabelIndex.bindPhase_ok_iff, kinds kind]
  constructor
  · rintro each sequence position reference bound ⟨line, found, refers⟩
    obtain ⟨instructions, here, there⟩ := Option.bind_eq_some_iff.mp found
    obtain ⟨label, meant⟩ := LabelIndex.resolve_ok_iff.mp (each sequence instructions here)
      position line reference bound there refers
    exact ⟨label, LabelIndex.find?_eligible knows here meant⟩
  · intro each sequence instructions here
    refine LabelIndex.resolve_ok_iff.mpr (fun position line reference bound there refers => ?_)
    have found : program.code.line? kind sequence position = some line := by
      rw [Code.line?, Program.code, here]
      exact there
    obtain ⟨label, eligible⟩ := each sequence position reference bound ⟨line, found, refers⟩
    exact LabelIndex.find?_complete knows here eligible

/-- What an operand of a bound phase is bound to is what it may mean in the program. -/
theorem Program.bindPhase_eligible {kind : PhaseKind} {linked : Phase}
    (bound_phase : program.index.bindPhase (program.phase kind) = .ok linked)
    {sequence position : Nat} {results : Sequence} {line : Instruction}
    (here : linked.sequences[sequence]? = some results) (there : results[position]? = some line)
    {reference : LabelReference} {bound : Option ResolvedLabel}
    (refers : .label reference bound ∈ line.operands) :
    ∃ label, bound = some label ∧
      Eligible program.code program.data kind sequence position reference label := by
  obtain ⟨⟨instructions, number⟩, listed, resolved⟩ :=
    Paired.at_place (LabelIndex.bindPhase_ok bound_phase) here
  rw [List.getElem?_zipIdx, Option.map_eq_some_iff] at listed
  obtain ⟨_, found, same⟩ := listed
  cases same
  rw [Nat.zero_add, kinds kind] at resolved
  obtain ⟨label, rfl, meant⟩ :=
    (LabelIndex.resolve_ok resolved).2 position line reference bound there refers
  exact ⟨label, rfl, LabelIndex.find?_eligible knows found meant⟩

end Knowing

/-- **All references of a template, or a resolution fault.**  Once the three phases have run
and the global labels are registered, generation succeeds exactly when each label operand of
each sequence has a declaration that it may mean, and can only fail with a resolution fault.
When it succeeds, nothing has changed but the label operands, each of them is bound to a
declaration that it may mean, and what it is bound to is there and printed as the operand. -/
theorem generate_resolves {ε : Type} (template : Template ε) (studio after : Studio ε)
    (program : Program) (run : template.program studio = (.ok program, after)) :
    ((∃ generated, (template.generate studio).1 = .ok generated) ↔
      ∀ phase sequence position reference bound,
        program.code.Refers phase sequence position reference bound →
        ∃ label, Eligible program.code program.data phase sequence position reference label) ∧
    (∀ fault, (template.generate studio).1 = .error fault → fault.kind = .resolution) ∧
    (∀ generated, (template.generate studio).1 = .ok generated →
      (∀ phase, (generated.code phase).map (List.map Instruction.unbound) =
        (program.code phase).map (List.map Instruction.unbound)) ∧
      generated.data = program.data ∧
      ∀ phase sequence position reference bound,
        generated.code.Refers phase sequence position reference bound →
        ∃ label, bound = some label ∧
          Eligible generated.code generated.data phase sequence position reference label ∧
          Real generated.code generated.data label) := by
  obtain ⟨kinds, _⟩ := Template.program_ok run
  have knows := Template.program_knows run
  have outcome : (template.generate studio).1 = (Session.link program after.session).1 := by
    rw [Template.generate, Computation.bind_run, run]
    rfl
  rw [outcome]
  refine ⟨⟨?_, ?_⟩, ?_, ?_⟩
  · rintro ⟨generated, linked⟩ phase
    have bound := (Session.link_ok (Prod.ext linked rfl)).1 phase
    exact (Program.bindPhase_ok_iff kinds knows phase).mp ⟨_, bound⟩
  · intro each
    rcases Session.link_cases program after.session with
      ⟨generated, last, linked⟩ | ⟨fault, _, kind, _, failed⟩
    · exact ⟨generated, by rw [linked]⟩
    · obtain ⟨phase, bound⟩ := (Program.bindPhase_ok_iff kinds knows kind).mpr (each kind)
      rw [failed] at bound
      cases bound
  · intro fault failed
    rcases Session.link_cases program after.session with
      ⟨_, _, linked⟩ | ⟨cause, _, kind, linked, at_phase⟩
    · rw [linked] at failed
      cases failed
    · rw [linked] at failed
      cases failed
      exact LabelIndex.bindPhase_error at_phase
  · intro generated linked
    obtain ⟨bound, data⟩ := Session.link_ok (Prod.ext linked rfl)
    have unbound : ∀ phase, (generated.code phase).map (List.map Instruction.unbound) =
        (program.code phase).map (List.map Instruction.unbound) :=
      fun phase => LabelIndex.bindPhase_unbound (bound phase)
    refine ⟨unbound, data, ?_⟩
    rintro phase sequence position reference held ⟨line, found, refers⟩
    obtain ⟨results, here, there⟩ := Option.bind_eq_some_iff.mp found
    obtain ⟨label, rfl, eligible⟩ :=
      Program.bindPhase_eligible kinds knows (bound phase) here there refers
    have still_eligible : Eligible generated.code generated.data phase sequence position reference
        label := by
      rw [data]
      refine eligible.congr (fun {_ _ _ _} => ⟨?_, ?_⟩)
      · exact Code.Declares.of_unbound (fun kind => (unbound kind).symm)
      · exact Code.Declares.of_unbound unbound
    exact ⟨label, rfl, still_eligible, still_eligible.real⟩

/-- A call of the main phase that refers to a global label of the phase before it. -/
def jumpBack : Template Unit where
  pre := Act.session do
    Session.declareGlobalLabel "entry" (.caller "jump" 1 1)
    Session.addCall { name := "nop" } (.caller "jump" 2 1)
  main := Act.session (Session.addCall
    { name := "jump", arguments := [.label (.named "entry" BlockId.root)] } (.caller "jump" 3 1))
  post := pure ()

theorem generate_resolves_jump_back :
    ∃ program after generated, jumpBack.program ⟨Session.new {}, ()⟩ = (.ok program, after) ∧
      (jumpBack.generate ⟨Session.new {}, ()⟩).1 = .ok generated ∧
      Eligible generated.code generated.data .main 0 0 (.named "entry" BlockId.root)
        ⟨"entry", .code .pre 0 0⟩ := by
  have operands : (match (jumpBack.generate ⟨Session.new {}, ()⟩).1 with
      | .ok generated => (generated.code.line? .main 0 0).map Instruction.operands
      | .error _ => none) =
        some [.label (.named "entry" BlockId.root) (some ⟨"entry", .code .pre 0 0⟩)] := by
    decide +kernel
  have runs : (jumpBack.program ⟨Session.new {}, ()⟩).1.isOk = true := by decide +kernel
  cases program_run : jumpBack.program ⟨Session.new {}, ()⟩ with
  | mk outcome after =>
      cases outcome with
      | error fault =>
          rw [program_run] at runs
          cases runs
      | ok program =>
          cases generated_is : (jumpBack.generate ⟨Session.new {}, ()⟩).1 with
          | error fault =>
              rw [generated_is] at operands
              cases operands
          | ok generated =>
              rw [generated_is] at operands
              obtain ⟨line, found, operands⟩ := Option.map_eq_some_iff.mp operands
              obtain ⟨_, _, bound⟩ :=
                (generate_resolves jumpBack ⟨Session.new {}, ()⟩ after program program_run).2.2
                  generated generated_is
              obtain ⟨label, same, eligible, _⟩ := bound .main 0 0 (.named "entry" BlockId.root)
                (some ⟨"entry", .code .pre 0 0⟩)
                ⟨line, found, operands ▸ List.mem_singleton.mpr rfl⟩
              cases same
              exact ⟨program, after, generated, rfl, rfl, eligible⟩

end TestProgram
