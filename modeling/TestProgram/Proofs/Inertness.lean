/-
# TestProgram.Proofs.Inertness -- texts and comments do not change what is executed

A template that is written down, as scripts or as a file, is run beside itself without its texts
and comments.  If no strategy is registered, and no text or comment is left over at the end of a
block where the placeholder that this makes is counted (`Tree.KeepsClear`), the second run
succeeds when the first does, and every phase has the same executable instructions: the same
lines but for texts and comments, with the same operands (`texts_and_comments_inert`).  A label
operand is printed the same and means the same place among the executable instructions, unless a
line of nothing but texts and comments stands between two declarations that it has the choice of
(`LabelIndex.Torn`).

A left over comment in an iterate block inside a free block counts as one more alternative and
does change what is executed, and the exception for labels is real
(`left_over_comment_counts`).
-/
import TestProgram.Proofs.Generation
import TestProgram.Proofs.HushedFiles
import TestProgram.Proofs.HushedPhases
import TestProgram.Proofs.HushedScripts

namespace TestProgram

set_option autoImplicit false

open Strategy (Agree)
open TestProgram.Computation

/-! ## Programs -/

/-- Two targets that are at the same spot among what is executed or written. -/
def SameSpot (code other : Code) (data others : List DataSection)
    (target counterpart : LabelTarget) : Prop :=
  LabelTarget.spot other others counterpart = LabelTarget.spot code data target

/-- Two programs of which the second is the first without texts and comments. -/
structure Program.Hushed (program other : Program) : Prop where
  phases : ∀ kind, (program.phase kind).Hushed (other.phase kind)
  index : LabelIndex.Alike (SameSpot program.code other.code program.data other.data)
    program.index other.index

/-- Three phases by their kinds. -/
def Phase.byKind (pre main post : Phase) : PhaseKind → Phase
  | .pre => pre
  | .main => main
  | .post => post

/-- The program of some phases with data and an index. -/
def Program.ofPhases (phases : PhaseKind → Phase) (data : List DataSection) (index : LabelIndex) :
    Program :=
  { pre := phases .pre, main := phases .main, post := phases .post, data, index }

theorem Program.phase_ofPhases (phases : PhaseKind → Phase) (data : List DataSection)
    (index : LabelIndex) (kind : PhaseKind) :
    (Program.ofPhases phases data index).phase kind = phases kind := by
  cases kind <;> rfl

theorem Program.code_ofPhases (phases : PhaseKind → Phase) (data : List DataSection)
    (index : LabelIndex) :
    (Program.ofPhases phases data index).code = fun kind => (phases kind).sequences :=
  funext (fun kind => congrArg Phase.sequences (Program.phase_ofPhases phases data index kind))

section Places

variable {program other : Program} (kinds : ∀ kind, (program.phase kind).kind = kind)
  (phases : ∀ kind, (program.phase kind).Hushed (other.phase kind))

/-- Lines that are kept are at the same spots. -/
theorem sameSpot_code (data others : List DataSection) {kind : PhaseKind} {number : Nat}
    {lines left : Sequence} (found : (program.code kind)[number]? = some lines)
    (also_found : (other.code kind)[number]? = some left) {kept : List Bool}
    (thinned : ThinnedLines kept lines left) (position : Nat) :
    SameSpot program.code other.code data others (.code kind number position)
      (.code kind number (place kept position)) := by
  simp only [SameSpot, LabelTarget.spot, found, also_found, Option.getD_some]
  rw [landing_thinned thinned]

include kinds phases

/-- The sequences of one program follow those of the other. -/
theorem numbered_follows (data others : List DataSection) :
    List.Forall₂ (LabelIndex.Follows (SameSpot program.code other.code data others))
      (program.phases.flatMap Phase.numbered) (other.phases.flatMap Phase.numbered) := by
  have each : ∀ kind, List.Forall₂
      (LabelIndex.Follows (SameSpot program.code other.code data others))
      (program.phase kind).numbered (other.phase kind).numbered := by
    intro kind
    rw [Phase.numbered, Phase.numbered, List.forall₂_map_left_iff, List.forall₂_map_right_iff]
    refine (Paired.zipIdx (phases kind).sequences).imp ?_
    rintro ⟨lines, number⟩ ⟨left, _⟩ ⟨rfl, found, also_found, kept, thinned⟩
    refine ⟨(phases kind).kind.symm, rfl, kept, thinned, fun position _ => ?_⟩
    rw [kinds kind]
    exact sameSpot_code data others found also_found thinned position
  simp only [Program.phases, List.flatMap_cons, List.flatMap_nil, List.append_nil]
  exact List.rel_append (each .pre) (List.rel_append (each .main) (each .post))

end Places

namespace Session

variable {pre main post : Phase} {session after : Session} {program : Program}

/-- What it takes to register three phases, besides their labels. -/
theorem register_needs (run : register pre main post session = (.ok program, after)) :
    (∃ lifecycle, session.lifecycle.finish = some lifecycle) ∧ session.data.isOpen = false ∧
      program.data = session.data.sections := by
  obtain ⟨_, finished, finish, run⟩ := Computation.bind_ok_iff.mp run
  obtain ⟨_, _, here, run⟩ := Computation.bind_ok_iff.mp run
  cases here
  cases ends : session.lifecycle.finish with
  | none =>
      simp only [finishLifecycle, ends] at finish
      cases finish
  | some lifecycle =>
      simp only [finishLifecycle, ends] at finish
      cases finish
      by_cases open_region : session.data.isOpen = true
      · simp only [if_pos open_region] at run
        obtain ⟨_, _, failed, _⟩ := Computation.bind_ok_iff.mp run
        cases failed
      · simp only [if_neg open_region] at run
        obtain ⟨data, _, taken, run⟩ := Computation.bind_ok_iff.mp run
        cases taken
        obtain ⟨index, _, _, run⟩ := Computation.bind_ok_iff.mp run
        cases run
        exact ⟨⟨lifecycle, rfl⟩, by simpa using open_region, rfl⟩

theorem register_succeeds {lifecycle : Lifecycle} {index : LabelIndex}
    (finish : session.lifecycle.finish = some lifecycle) (closed : session.data.isOpen = false)
    (indexed : LabelIndex.ofAll (dataLabels session.data.sections)
      ([pre, main, post].flatMap Phase.numbered) = .ok index) :
    ∃ last, register pre main post session =
      (.ok ⟨pre, main, post, session.data.sections, index⟩, last) := by
  refine ⟨{ session with lifecycle, data := { session.data with sections := [] } }, ?_⟩
  refine Computation.bind_ok_iff.mpr ⟨(), { session with lifecycle }, ?_, ?_⟩
  · simp only [finishLifecycle, finish]
  · refine Computation.bind_ok_iff.mpr
      ⟨{ session with lifecycle }, { session with lifecycle }, rfl, ?_⟩
    simp only [closed, Bool.false_eq_true, if_false]
    refine Computation.bind_ok_iff.mpr ⟨session.data.sections,
      { session with lifecycle, data := { session.data with sections := [] } }, rfl, ?_⟩
    refine Computation.bind_ok_iff.mpr ⟨index, _, ?_, rfl⟩
    simp only [Action.ofExcept, indexed]

/-- The phases of two sessions are registered together. -/
theorem register_follows {first second : Session} (resting : Resting first second)
    (run : register pre main post first = (.ok program, after))
    (kinds : ∀ kind, (program.phase kind).kind = kind) {others : PhaseKind → Phase}
    (phases : ∀ kind, (program.phase kind).Hushed (others kind)) :
    ∃ other last, register (others .pre) (others .main) (others .post) second =
        (.ok other, last) ∧ program.Hushed other := by
  obtain ⟨⟨lifecycle, finish⟩, closed, data⟩ := register_needs run
  obtain ⟨_, _, _, indexed⟩ := register_ok run
  have also_finish : second.lifecycle.finish = some lifecycle := resting.lifecycle ▸ finish
  have also_closed : second.data.isOpen = false := by
    rw [← closed, DataStore.isOpen, DataStore.isOpen, resting.data.depth]
  have sections : program.data.map DataSection.hushed =
      second.data.sections.map DataSection.hushed := by
    rw [data]
    exact resting.data.sections
  let partner := Program.ofPhases others second.data.sections
  have hushed : ∀ index kind, (program.phase kind).Hushed ((partner index).phase kind) := by
    intro index kind
    rw [Program.phase_ofPhases]
    exact phases kind
  have indices := LabelIndex.ofAll_agree
    (dataLabels_hushed program.code (partner {}).code sections)
    (numbered_follows kinds (hushed {}) program.data second.data.sections)
  rw [indexed] at indices
  obtain ⟨index, also_indexed, alike⟩ := Agree.of_ok indices
  obtain ⟨last, also_run⟩ := register_succeeds also_finish also_closed also_indexed
  have code : (partner index).code = (partner {}).code := by
    rw [Program.code_ofPhases, Program.code_ofPhases]
  exact ⟨partner index, last, also_run, hushed index, by rw [code]; exact alike⟩

end Session

/-! ## Templates -/

section Programs

variable {ε : Type} {M : ε → ε → Prop}

/-- Two studios with new sessions of the same settings. -/
theorem Studio.resting_new (settings : Settings) {memory other : ε} (alike : M memory other) :
    Studio.Resting M ⟨Session.new settings, memory⟩ ⟨Session.new settings, other⟩ where
  session :=
    { settings := rfl, engine := rfl, builtin := rfl, also_builtin := rfl, defaults := rfl
      data := ⟨rfl, rfl, rfl, rfl, rfl, rfl, rfl⟩
      sound := fun inside => absurd inside (Nat.lt_irrefl 0)
      depth_is := rfl, blocks := .nil, attributes := rfl, sections := rfl, completed := .none
      lifecycle := rfl, closed := rfl }
  memory := alike

/-- Two templates whose bodies keep step with each other. -/
structure Template.InStep (M : ε → ε → Prop) (template silent : Template ε) : Prop where
  pre : Computation.InStep (Studio.Abreast M 0) Eq template.pre silent.pre
  main : Computation.InStep (Studio.Abreast M 0) Eq template.main silent.main
  post : Computation.InStep (Studio.Abreast M 0) Eq template.post silent.post

variable {template silent : Template ε} (together : Template.InStep M template silent)
  {first second after : Studio ε} (resting : Studio.Resting M first second)

include together resting

/-- Without its texts and comments a template has a program with the same phases but for lines
of these. -/
theorem program_follows {program : Program}
    (run : template.program first = (.ok program, after))
    (clear : ∀ kind, (program.phase kind).block.toTree.KeepsClear) :
    ∃ other last, silent.program second = (.ok other, last) ∧ program.Hushed other := by
  obtain ⟨kinds, _⟩ := Template.program_ok run
  obtain ⟨_, _, remarked, run⟩ := Computation.bind_ok_iff.mp run
  cases remarked
  obtain ⟨pre_phase, _, pre_run, run⟩ := Computation.bind_ok_iff.mp run
  obtain ⟨main_phase, _, main_run, run⟩ := Computation.bind_ok_iff.mp run
  obtain ⟨post_phase, ended, post_run, run⟩ := Computation.bind_ok_iff.mp run
  have registered := Act.session_ok run
  obtain ⟨rfl, rfl, rfl, _⟩ := Session.register_ok registered
  have began : Studio.Resting M
      { first with session := (Action.remark (.generating first.session.settings.seed)
        first.session).2 }
      { second with session := (Action.remark (.generating second.session.settings.seed)
        second.session).2 } :=
    ⟨(Session.remark_resting _ _ _ _ resting.session).2, resting.memory⟩
  obtain ⟨pre_other, _, also_pre, pre_hushed, began⟩ :=
    Act.runPhase_follows together.pre began pre_run (clear .pre)
  obtain ⟨main_other, _, also_main, main_hushed, began⟩ :=
    Act.runPhase_follows together.main began main_run (clear .main)
  obtain ⟨post_other, last, also_post, post_hushed, rested⟩ :=
    Act.runPhase_follows together.post began post_run (clear .post)
  have phases : ∀ kind, (program.phase kind).Hushed
      (Phase.byKind pre_other main_other post_other kind) := by
    intro kind
    cases kind with
    | pre => exact pre_hushed
    | main => exact main_hushed
    | post => exact post_hushed
  obtain ⟨other, session, also_registered, hushed⟩ :=
    Session.register_follows rested.session registered kinds phases
  refine ⟨other, { last with session }, ?_, hushed⟩
  refine Computation.bind_ok_iff.mpr ⟨(), _, rfl, ?_⟩
  refine Computation.bind_ok_iff.mpr ⟨pre_other, _, also_pre, ?_⟩
  refine Computation.bind_ok_iff.mpr ⟨main_other, _, also_main, ?_⟩
  refine Computation.bind_ok_iff.mpr ⟨post_other, last, also_post, ?_⟩
  have done : Session.register pre_other main_other post_other last.session =
      (.ok other, session) := also_registered
  simp only [Act.session, done]

end Programs

/-! ## Linking -/

/-- The executable instructions of a sequence with their positions. -/
def Sequence.executables (lines : Sequence) : List (Instruction × Nat) :=
  lines.zipIdx.filter (fun line => line.1.isExecutable)

section Linking

variable {program other : Program} (hushed : program.Hushed other)
  (kinds : ∀ kind, (program.phase kind).kind = kind) {kind : PhaseKind} {linked : Phase}
  (bound : program.index.bindPhase (program.phase kind) = .ok linked)

include hushed kinds bound

/-- A phase that can be bound can be bound without texts and comments. -/
theorem exists_bindPhase : ∃ left, other.index.bindPhase (other.phase kind) = .ok left := by
  rw [LabelIndex.bindPhase_ok_iff]
  intro number left also_found
  obtain ⟨lines, found, kept, thinned⟩ := Paired.at_place (hushed.phases kind).sequences also_found
  obtain ⟨results, resolved⟩ := LabelIndex.bindPhase_ok_iff.mp ⟨linked, bound⟩ number lines found
  rw [(hushed.phases kind).kind]
  refine LabelIndex.exists_resolved hushed.index thinned (fun position _ => ?_) resolved
  rw [kinds kind]
  exact sameSpot_code _ _ found also_found thinned position

/-- The executable lines of a bound phase are those of the phase bound without texts and
comments. -/
theorem bindPhase_executables {left : Phase}
    (also_bound : other.index.bindPhase (other.phase kind) = .ok left) :
    List.Forall₂ (fun lines others => List.Forall₂
        (SameLine (SameSpot program.code other.code program.data other.data) lines)
        (Sequence.executables lines) (Sequence.executables others))
      linked.sequences left.sequences := by
  refine Paired.square (Paired.zipIdx (hushed.phases kind).sequences)
    (LabelIndex.bindPhase_ok bound) (LabelIndex.bindPhase_ok also_bound) ?_
  rintro ⟨lines, number⟩ ⟨left, _⟩ results bound ⟨rfl, found, also_found, kept, thinned⟩ resolved
    also_resolved
  rw [(hushed.phases kind).kind] at also_resolved
  have thinned_results := LabelIndex.resolve_thinned hushed.index thinned (fun position _ => by
    rw [kinds kind]
    exact sameSpot_code _ _ found also_found thinned position) resolved also_resolved
  refine thinned_results.filter ?_ ?_
  · intro line counterpart same
    have name : counterpart.1.unbound.name = line.1.hushed.unbound.name :=
      congrArg Instruction.name same.rest
    change counterpart.1.name = line.1.name at name
    simp only [Instruction.isExecutable, name]
  · intro line bare
    simp [Instruction.isExecutable, (Instruction.isBare_iff.mp bare).1]

end Linking

theorem landing_unbound (lines : Sequence) (position : Nat) :
    Sequence.landing (lines.map Instruction.unbound) position = lines.landing position := by
  rw [Sequence.landing, ← List.map_take, List.countP_map]
  rfl

/-- Where operands are bound to does not move a spot. -/
theorem spot_unbound {code other : Code} (data : List DataSection)
    (same : ∀ kind, (code kind).map (List.map Instruction.unbound) =
      (other kind).map (List.map Instruction.unbound)) :
    LabelTarget.spot code data = LabelTarget.spot other data := by
  have landing : ∀ (any : Code) (phase : PhaseKind) (sequence position : Nat),
      Sequence.landing ((any phase)[sequence]?.getD []) position =
        Sequence.landing
          (((any phase).map (List.map Instruction.unbound))[sequence]?.getD []) position := by
    intro any phase sequence position
    rw [List.getElem?_map]
    cases (any phase)[sequence]? with
    | none => rfl
    | some lines => exact (landing_unbound lines position).symm
  funext target
  cases target with
  | code phase sequence position => simp only [LabelTarget.spot, landing, same]
  | data region directive => rfl

section Generating

variable {ε : Type} {M : ε → ε → Prop}

/-- **The second of two templates in step.**  If it lacks only texts and comments of the first
that are not counted, it executes what the first does. -/
theorem generate_follows {template silent : Template ε}
    (together : Template.InStep M template silent) {first second after : Studio ε}
    (resting : Studio.Resting M first second)
    {generated : Generated} (run : template.generate first = (.ok generated, after))
    (clear : ∀ kind, (generated.phase kind).block.toTree.KeepsClear) :
    ∃ other last, silent.generate second = (.ok other, last) ∧
      ∀ kind, List.Forall₂ (fun lines others => List.Forall₂
          (SameLine (SameSpot generated.code other.code generated.data other.data) lines)
          (Sequence.executables lines) (Sequence.executables others))
        (generated.code kind) (other.code kind) := by
  obtain ⟨program, ended, program_run, linked⟩ := Computation.bind_ok_iff.mp run
  obtain ⟨kinds, _⟩ := Template.program_ok program_run
  obtain ⟨bound, data⟩ := Session.link_ok (Act.session_ok linked)
  have blocks : ∀ kind, (program.phase kind).block = (generated.phase kind).block := by
    intro kind
    obtain ⟨_, _, made⟩ := Except.bind_ok_iff.mp (bound kind)
    rw [← Except.ok.inj made]
  obtain ⟨other, last, also_run, hushed⟩ :=
    program_follows together resting program_run (fun kind => blocks kind ▸ clear kind)
  rcases Session.link_cases other last.session with
    ⟨result, session, also_linked⟩ | ⟨fault, _, kind, _, failed⟩
  · obtain ⟨also_bound, also_data⟩ := Session.link_ok also_linked
    refine ⟨result, { last with session }, ?_, fun kind => ?_⟩
    · refine Computation.bind_ok_iff.mpr ⟨other, last, also_run, ?_⟩
      simp only [Act.session, also_linked]
    · have spots : LabelTarget.spot generated.code generated.data =
          LabelTarget.spot program.code program.data := by
        rw [data]
        exact spot_unbound _ (fun kind => LabelIndex.bindPhase_unbound (bound kind))
      have also_spots : LabelTarget.spot result.code result.data =
          LabelTarget.spot other.code other.data := by
        rw [also_data]
        exact spot_unbound _ (fun kind => LabelIndex.bindPhase_unbound (also_bound kind))
      have same : SameSpot generated.code result.code generated.data result.data =
          SameSpot program.code other.code program.data other.data := by
        unfold SameSpot
        rw [spots, also_spots]
      rw [same]
      exact bindPhase_executables hushed kinds (bound kind) (also_bound kind)
  · obtain ⟨left, also_bound⟩ := exists_bindPhase hushed kinds (bound kind)
    rw [failed] at also_bound
    cases also_bound

end Generating

/-! ## Templates that are written down -/

/-- A template that is written down: a script for each phase, where that of the main phase may
be missing, or a file with its number, run with what earlier runs have built. -/
inductive Written
  | scripts (pre : Script) (main : Option Script) (post : Script)
  | file (held : TemplateFile) (number : Nat) (memory : TemplateFile.Memory)

namespace Written

/-- The template of three scripts. -/
def scripted (pre : Script) (main : Option Script) (post : Script) :
    Template Script.Notebook where
  pre := Script.runAll pre
  main := main.elim Template.noMain Script.runAll
  post := Script.runAll post

/-- What the template comes to on a new session. -/
def generate (settings : Settings) : Written → Except Fault Generated
  | .scripts pre main post => ((scripted pre main post).generate ⟨Session.new settings, {}⟩).1
  | .file held number memory => (held.generate number settings memory).1

/-- The template without its statements of texts and comments. -/
def silenced : Written → Written
  | .scripts pre main post =>
      .scripts (Script.Step.silencedAll pre) (main.map Script.Step.silencedAll)
        (Script.Step.silencedAll post)
  | .file held number memory => .file held.silenced number memory

/-- No statement adds a strategy to those every session knows. -/
def Plain : Written → Prop
  | .scripts pre main post => ∀ script ∈ pre :: post :: main.toList,
      Script.Step.anyRegisters script = false
  | .file _ _ _ => True

theorem scripted_inStep {pre : Script} {main : Option Script} {post : Script}
    (plain : Plain (.scripts pre main post)) :
    Template.InStep Script.Notebook.Alike (scripted pre main post)
      (scripted (Script.Step.silencedAll pre) (main.map Script.Step.silencedAll)
        (Script.Step.silencedAll post)) where
  pre := Script.runAll_inStep pre (plain pre (by simp))
  main := by
    cases main with
    | none => exact Act.session_inStep (Session.remark_inStep _ _)
    | some body => exact Script.runAll_inStep body (plain body (by simp))
  post := Script.runAll_inStep post (plain post (by simp))

theorem file_inStep (held : TemplateFile) (number : Nat) :
    Template.InStep Eq (held.template number) (held.silenced.template number) where
  pre := (TemplateFile.prepare_inStep held).bind
    (fun _ _ _ => TemplateFile.runItems_inStep number held.pre)
  main := TemplateFile.runItems_inStep number held.main
  post := TemplateFile.runItems_inStep number held.post

end Written

/-- **Texts and comments are inert.**  Let a template that is written down, and registers no
strategies, be generated, with no text or comment left over where the placeholder for it is
counted as a stream or as a unit.  Then the template without its texts and comments is generated
too, and each phase has the same executable instructions in the same order: each has the same
name, the same operands, and whatever else it had but texts and comments.  A label operand is
printed the same and means the same place among the executable instructions, unless it is a named
one between two declarations that it sees and a line of nothing but texts and comments stands
there too. -/
theorem texts_and_comments_inert (written : Written) (plain : written.Plain) (settings : Settings)
    (generated : Generated) (run : written.generate settings = .ok generated)
    (clear : ∀ kind, (generated.phase kind).block.toTree.KeepsClear) :
    ∃ silent, written.silenced.generate settings = .ok silent ∧
      ∀ kind, List.Forall₂ (fun lines others => List.Forall₂
          (SameLine (SameSpot generated.code silent.code generated.data silent.data) lines)
          (Sequence.executables lines) (Sequence.executables others))
        (generated.code kind) (silent.code kind) := by
  cases written with
  | scripts pre main post =>
      have alike : Script.Notebook.Alike {} {} := ⟨rfl, rfl, rfl, by simp⟩
      obtain ⟨silent, last, also_run, same⟩ := generate_follows (Written.scripted_inStep plain)
        (Studio.resting_new settings alike) (Prod.ext run rfl) clear
      exact ⟨silent, congrArg Prod.fst also_run, same⟩
  | file held number memory =>
      obtain ⟨silent, last, also_run, same⟩ := generate_follows (Written.file_inStep held number)
        (Studio.resting_new settings rfl) (Prod.ext run rfl) clear
      exact ⟨silent, congrArg Prod.fst also_run, same⟩

namespace Script

/-- An instruction without operands. -/
def call (name : String) : Step :=
  .statement (.instruction name [])

/-- An iterate block that ends with a comment. -/
def remarked (name : String) : Step :=
  .block .iterate (.given {}) none [call name, .statement (.comment "end")]

/-- A jump between two labels of one name, with a comment left over on the way. -/
def jumpBetween : Script :=
  [.statement (.label "x"), call "a", remarked "b",
    .statement (.instruction "jump" [.label "x"]), call "c", .statement (.label "x"), call "d"]

/-- An iterate block with a comment left over, inside a free block. -/
def remarkedBeside : Script :=
  [.block .free (.given {}) none [remarked "a", call "b"]]

end Script

namespace Written

/-- A template with a main phase only. -/
def mainOnly (main : Script) : Written :=
  .scripts [] (some main) []

/-- What a template executes, sequence by sequence and phase by phase. -/
def executed? (written : Written) : Option (List (List (List String))) :=
  match written.generate {} with
  | .ok generated => some (generated.phases.map (fun phase => phase.sequences.map
      (fun lines => (Sequence.executables lines).map (fun line => line.1.statement))))
  | .error _ => none

/-- Whether no placeholder is counted when a template is generated. -/
def keepsClear (written : Written) : Bool :=
  match written.generate {} with
  | .ok generated => generated.phases.all (fun phase => phase.block.toTree.KeepsClear)
  | .error _ => false

theorem exists_generated {written : Written} (clear : written.keepsClear = true) :
    ∃ generated, written.generate {} = .ok generated ∧
      ∀ kind, (generated.phase kind).block.toTree.KeepsClear := by
  unfold keepsClear at clear
  rcases ran : written.generate {} with _ | generated
  · rw [ran] at clear
    cases clear
  · rw [ran] at clear
    refine ⟨generated, rfl, fun kind => ?_⟩
    have listed : generated.phase kind ∈ generated.phases := by
      cases kind <;> simp [Generated.phase, Generated.phases]
    exact of_decide_eq_true (List.all_eq_true.mp clear _ listed)

end Written

theorem texts_and_comments_inert_between :
    ∃ generated silent, (Written.mainOnly Script.jumpBetween).generate {} = .ok generated ∧
      (Written.mainOnly Script.jumpBetween).silenced.generate {} = .ok silent ∧
      ∀ kind, List.Forall₂ (fun lines others => List.Forall₂
          (SameLine (SameSpot generated.code silent.code generated.data silent.data) lines)
          (Sequence.executables lines) (Sequence.executables others))
        (generated.code kind) (silent.code kind) := by
  have clear : (Written.mainOnly Script.jumpBetween).keepsClear = true := by decide +kernel
  obtain ⟨generated, run, clear⟩ := Written.exists_generated clear
  have plain : (Written.mainOnly Script.jumpBetween).Plain := by
    intro script listed
    simp only [Option.toList_some, List.mem_cons, List.not_mem_nil, or_false] at listed
    rcases listed with rfl | rfl | rfl <;> rfl
  obtain ⟨silent, also_run, same⟩ :=
    texts_and_comments_inert (Written.mainOnly Script.jumpBetween) plain {} generated run clear
  exact ⟨generated, silent, run, also_run, same⟩

/-- A comment that is left over at the end of an iterate block counts as an iteration in a free
block, and on the way from a reference to a label it counts as an instruction. -/
theorem left_over_comment_counts :
    (Written.mainOnly Script.remarkedBeside).executed? = some [[[]], [["a", "b", "b"]], [[]]] ∧
      (Written.mainOnly Script.remarkedBeside).silenced.executed? =
        some [[[]], [["a", "b"]], [[]]] ∧
      (Written.mainOnly Script.jumpBetween).executed? =
        some [[[]], [["a", "b", "jump x_1", "c", "d"]], [[]]] ∧
      (Written.mainOnly Script.jumpBetween).silenced.executed? =
        some [[[]], [["a", "b", "jump x", "c", "d"]], [[]]] := by
  decide +kernel

end TestProgram
