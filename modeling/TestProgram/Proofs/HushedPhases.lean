/-
# TestProgram.Proofs.HushedPhases -- phases without texts and comments

Between two phases no block is open (`Session.Resting`), and inside one the block of the phase
is (`Session.Abreast`).  A phase takes two sessions from the first relation to the second and
back, so its three steps are followed one by one: what the first run comes to without a fault,
the second comes to as well.

With a body that keeps step with its own, a phase is the same then but for lines of texts and
comments (`Act.runPhase_follows`), and the labels of the data are the same but for the
directives that stood between them (`dataLabels_hushed`).
-/
import TestProgram.Proofs.HushedLabels
import TestProgram.Proofs.HushedStudios

namespace TestProgram

set_option autoImplicit false

open Strategy (Agree)
open TestProgram.Computation

/-! ## Sessions between phases -/

/-- Two sessions without open blocks and regions that draw the same and differ in texts and
comments only. -/
structure Session.Resting (here there : Session) : Prop extends Session.Alike 0 here there where
  closed : here.blocks = []

theorem Session.Resting.also_closed {here there : Session} (resting : Session.Resting here there) :
    there.blocks = [] := by
  have blocks := resting.blocks
  rw [resting.closed] at blocks
  exact List.forall₂_nil_left_iff.mp blocks

namespace Session

variable {first second after : Session} {kind : PhaseKind}

theorem remark_resting (remarked other : Remark) :
    InStep Resting Eq (Action.remark remarked) (Action.remark other) :=
  inStep_modify (fun _ _ resting => { resting with engine := resting.engine })

/-- Two sessions begin a phase together. -/
theorem beginPhase_follows (resting : Resting first second)
    (run : beginPhase kind first = (.ok (), after)) :
    ∃ last, beginPhase kind second = (.ok (), last) ∧ Abreast 0 after last := by
  obtain ⟨lifecycle, enters, running, rfl⟩ := beginPhase_ok resting.closed run
  refine ⟨_, beginPhase_of_enter resting.also_closed (resting.lifecycle ▸ enters) running,
    { resting with
      lifecycle := rfl, blocks := .cons ⟨rfl, rfl, rfl, rfl, rfl, rfl, .nil⟩ .nil, running
      inside := List.cons_ne_nil _ _ }⟩

/-- When only the block of the phase is open, it is taken out of two sessions together. -/
theorem takePhaseBlock_follows (abreast : Abreast 0 first second)
    (single : first.blocks.length = 1) {sealed : Block Call}
    (run : takePhaseBlock kind first = (.ok sealed, after)) :
    ∃ other last, takePhaseBlock kind second = (.ok other, last) ∧ Block.Alike sealed other ∧
      Resting after last := by
  obtain ⟨block, counterpart, outer, others, here, there, top, rest⟩ := abreast.innermost
  have no_outer : outer = [] := by
    rw [here, List.length_cons] at single
    exact List.eq_nil_of_length_eq_zero (by omega)
  subst no_outer
  obtain rfl := List.forall₂_nil_left_iff.mp rest
  obtain ⟨root, fits, rfl, rfl⟩ := (takePhaseBlock_ok_iff here).mp run
  have fits' : second.admissible counterpart = .ok () := (abreast.admissible top).symm.trans fits
  have also_run : takePhaseBlock kind second = _ :=
    (takePhaseBlock_ok_iff there).mpr ⟨top.id ▸ root, fits', rfl, rfl⟩
  refine ⟨_, _, also_run, ?_, ?_⟩
  · rw [abreast.currentSection]
    exact top.sealed _
  · exact { abreast with
      engine := abreast.engine, blocks := .nil, completed := .none, closed := rfl }

end Session

/-- What one generation comes to without a fault, the other comes to as well. -/
theorem Generation.follows {α β : Type} {V : α → β → Prop} {here : Generation α}
    {there : Generation β} (together : InStep Engine.Alike V here there)
    {first second after : Engine} (alike : Engine.Alike first second) {value : α}
    (run : here first = (.ok value, after)) :
    ∃ other last, there second = (.ok other, last) ∧ V value other ∧ Engine.Alike after last := by
  obtain ⟨agree, engines⟩ := together first second alike
  rw [run] at agree engines
  obtain ⟨other, outcome, related⟩ := Agree.of_ok agree
  exact ⟨other, _, Prod.ext outcome rfl, related, engines⟩

namespace Session

variable {first second after : Session} {kind : PhaseKind}

/-- **The sequences of a phase.**  Where no placeholder that carries texts and comments only
makes a difference, they are those of the phase without texts and comments, but for lines that
have nothing else. -/
theorem generateSequences_follows (resting : Resting first second) {block other : Block Call}
    (alike : Block.Alike block other) (clear : block.toTree.KeepsClear) {sequences : List Sequence}
    (run : generateSequences block first = (.ok sequences, after)) :
    ∃ others last, generateSequences other second = (.ok others, last) ∧
      List.Forall₂ (fun lines others => ∃ kept, ThinnedLines kept lines others) sequences others ∧
      Resting after last := by
  obtain ⟨held, _, looked, run⟩ := Computation.bind_ok_iff.mp run
  cases looked
  rw [resting.builtin] at run
  rcases generated : (do
      let streams ← Expansion.expand Strategy.builtins block.toTree
      streams.mapM finalize : Generation (List Sequence)) first.engine with ⟨outcome, engine⟩
  rw [Action.generation, generated] at run
  cases run
  obtain ⟨streams, middle, expanded, finalized⟩ := Computation.bind_ok_iff.mp generated
  obtain ⟨others, counterpart, also_expanded, follows, engines⟩ :=
    Generation.follows (Expansion.expand_hushed alike.hushed .streams clear) resting.engine expanded
  have finalizes : InStep Engine.Alike
      (List.Forall₂ (fun lines others => ∃ kept, ThinnedLines kept lines others))
      (streams.mapM finalize) (others.mapM finalize) :=
    inStep_mapM follows (fun _ _ thinned =>
      (finalize_inStep thinned.choose_spec).mono (fun _ _ lines => ⟨_, lines⟩))
  obtain ⟨results, last, also_finalized, related, alike_engines⟩ :=
    Generation.follows finalizes engines finalized
  refine ⟨results, { second with engine := last }, ?_, related,
    { resting with engine := alike_engines }⟩
  refine Computation.bind_ok_iff.mpr ⟨second, second, rfl, ?_⟩
  have body : (do
      let streams ← Expansion.expand Strategy.builtins other.toTree
      streams.mapM finalize : Generation (List Sequence)) second.engine = (.ok results, last) :=
    Computation.bind_ok_iff.mpr ⟨_, _, also_expanded, also_finalized⟩
  simp only [resting.also_builtin, Action.generation, body]

end Session

/-! ## Phases -/

/-- A phase and the phase without texts and comments. -/
structure Phase.Hushed (phase other : Phase) : Prop where
  kind : other.kind = phase.kind
  sequences : List.Forall₂ (fun lines others => ∃ kept, ThinnedLines kept lines others)
    phase.sequences other.sequences

namespace Session

variable {first second after : Session} {kind : PhaseKind}

theorem endPhase_follows (abreast : Abreast 0 first second) {outcome other : Except Fault Unit}
    (ended : Agree Eq outcome other) {phase : Phase}
    (run : endPhase kind outcome first = (.ok phase, after))
    (clear : phase.block.toTree.KeepsClear) :
    ∃ counterpart last, endPhase kind other second = (.ok counterpart, last) ∧
      phase.Hushed counterpart ∧ Resting after last := by
  cases ended with
  | error fault =>
      obtain ⟨_, _, _, failed⟩ := Computation.bind_ok_iff.mp run
      cases failed
  | ok _ =>
      obtain ⟨held, _, looked, run⟩ := Computation.bind_ok_iff.mp run
      cases looked
      by_cases open_blocks : first.blocks.length ≠ 1
      · simp only [if_pos open_blocks] at run
        obtain ⟨_, _, _, run⟩ := Computation.bind_ok_iff.mp run
        obtain ⟨_, _, failed, _⟩ := Computation.bind_ok_iff.mp run
        cases failed
      · simp only [if_neg open_blocks] at run
        have single : first.blocks.length = 1 := Decidable.not_not.mp open_blocks
        have also_single : ¬ second.blocks.length ≠ 1 := by
          rw [← abreast.blocks.length_eq]
          exact open_blocks
        obtain ⟨block, _, took, run⟩ := Computation.bind_ok_iff.mp run
        obtain ⟨sequences, _, made, run⟩ := Computation.bind_ok_iff.mp run
        obtain ⟨_, _, remarked, run⟩ := Computation.bind_ok_iff.mp run
        cases remarked
        cases run
        obtain ⟨other, _, also_took, alike, resting⟩ :=
          takePhaseBlock_follows abreast single took
        obtain ⟨others, last, also_made, thinned, resting⟩ :=
          generateSequences_follows resting alike clear made
        have ends : endPhase kind (.ok ()) second = (.ok ⟨kind, other, others⟩,
            (Action.remark (.phaseGenerated kind others.length) last).2) := by
          refine Computation.bind_ok_iff.mpr ⟨second, second, rfl, ?_⟩
          simp only [if_neg also_single]
          refine Computation.bind_ok_iff.mpr ⟨_, _, also_took, ?_⟩
          refine Computation.bind_ok_iff.mpr ⟨_, _, also_made, ?_⟩
          exact Computation.bind_ok_iff.mpr ⟨(), _, rfl, rfl⟩
        exact ⟨_, _, ends, ⟨rfl, thinned⟩, (remark_resting _ _ _ _ resting).2⟩

end Session

/-! ## Bodies -/

section Bodies

variable {ε : Type} {M : ε → ε → Prop}

/-- Two studios between phases. -/
structure Studio.Resting (M : ε → ε → Prop) (here there : Studio ε) : Prop where
  session : Session.Resting here.session there.session
  memory : M here.memory there.memory

/-- A phase is followed by the phase of a body that keeps step with its own. -/
theorem Act.runPhase_follows {kind : PhaseKind} {body silent : Act ε Unit}
    (together : InStep (Studio.Abreast M 0) Eq body silent) {first second after : Studio ε}
    (resting : Studio.Resting M first second) {phase : Phase}
    (run : Act.runPhase kind body first = (.ok phase, after))
    (clear : phase.block.toTree.KeepsClear) :
    ∃ other last, Act.runPhase kind silent second = (.ok other, last) ∧ phase.Hushed other ∧
      Studio.Resting M after last := by
  obtain ⟨_, _, remarked, run⟩ := Computation.bind_ok_iff.mp run
  cases remarked
  obtain ⟨_, began, entered, run⟩ := Computation.bind_ok_iff.mp run
  obtain ⟨outcome, ended, attempted, run⟩ := Computation.bind_ok_iff.mp run
  have remarked := (Session.remark_resting (.phaseStarted kind) (.phaseStarted kind) _ _
    resting.session).2
  obtain ⟨session, also_entered, sessions⟩ :=
    Session.beginPhase_follows remarked (Act.session_ok entered)
  have abreast : Studio.Abreast M 0 began { second with session } :=
    ⟨sessions, session_memory entered ▸ resting.memory⟩
  obtain ⟨agree, still_abreast⟩ := together _ _ abreast
  cases attempted
  obtain ⟨other, last, also_ended, hushed, rested⟩ :=
    Session.endPhase_follows still_abreast.session agree (Act.session_ok run) clear
  have also_run : Act.runPhase kind silent second = (.ok other,
      { (silent { second with session }).2 with session := last }) := by
    refine Computation.bind_ok_iff.mpr ⟨(), { second with
      session := (Action.remark (.phaseStarted kind) second.session).2 }, rfl, ?_⟩
    refine Computation.bind_ok_iff.mpr ⟨(), { second with session }, ?_, ?_⟩
    · simp only [Act.session, also_entered]
    · refine Computation.bind_ok_iff.mpr ⟨_, _, rfl, ?_⟩
      simp only [Act.session, also_ended]
  exact ⟨other, _, also_run, hushed, rested, session_memory run ▸ still_abreast.memory⟩

end Bodies

/-! ## Programs -/

/-- How many directives other than texts and comments stand before a directive. -/
def DataSection.landing (region : DataSection) (directive : Nat) : Nat :=
  (region.directives.take directive).countP (fun written => !written.isRemark)

/-- Where a target is among executable instructions, or among directives other than texts and
comments. -/
def LabelTarget.spot (code : Code) (data : List DataSection) : LabelTarget → LabelTarget
  | .code phase sequence position =>
      .code phase sequence (Sequence.landing ((code phase)[sequence]?.getD []) position)
  | .data region directive =>
      .data region ((data[region]?.map (fun held => held.landing directive)).getD 0)

section Data

/-- The label that a directive is. -/
def DataDirective.label? : DataDirective → Option Label
  | .label declared => some declared
  | _ => none

theorem labels_eq (region : DataSection) :
    region.labels =
      region.directives.zipIdx.filterMap (fun entry => entry.1.label?.map (entry.2, ·)) := by
  refine List.filterMap_congr (fun entry _ => ?_)
  obtain ⟨directive, index⟩ := entry
  cases directive <;> rfl

theorem labels_cons (region : DataSection) (first : DataDirective) (rest : List DataDirective) :
    DataSection.labels { region with directives := first :: rest } =
      (first.label?.map (0, ·)).toList ++
      (DataSection.labels { region with directives := rest }).map
        (fun entry => (entry.1 + 1, entry.2)) := by
  have later : (List.map (Prod.map id (· + 1)) rest.zipIdx).filterMap
        (fun entry => entry.1.label?.map (entry.2, ·)) =
      (DataSection.labels { region with directives := rest }).map
        (fun entry => (entry.1 + 1, entry.2)) := by
    rw [List.filterMap_map, labels_eq, List.map_filterMap]
    refine List.filterMap_congr (fun entry _ => ?_)
    rw [Option.map_map]
    rfl
  rw [← later, labels_eq, List.zipIdx_cons', List.filterMap_cons]
  cases first <;> rfl

/-- Without texts and comments a label of a section stands where it lands. -/
theorem labels_hushed (region : DataSection) :
    region.hushed.labels = region.labels.map (fun entry => (region.landing entry.1, entry.2)) := by
  obtain ⟨target, isGlobal, inSeparateFile, memory, directives⟩ := region
  induction directives with
  | nil => rfl
  | cons first rest ih =>
      have hushed : ∀ directives, DataSection.hushed
          ⟨target, isGlobal, inSeparateFile, memory, directives⟩ =
          ⟨target, isGlobal, inSeparateFile, memory, directives.filter (fun held => !held.isRemark)⟩ :=
        fun _ => rfl
      rw [hushed] at ih ⊢
      rw [labels_cons ⟨target, isGlobal, inSeparateFile, memory, []⟩, List.map_append, List.map_map,
        List.filter_cons]
      split
      · rename_i spoken
        rw [labels_cons ⟨target, isGlobal, inSeparateFile, memory, []⟩, ih, List.map_map]
        congr 1
        · cases first <;> rfl
        · refine List.map_congr_left (fun entry _ => ?_)
          simp [DataSection.landing, spoken]
      · rename_i remark
        have unlabelled : first.label? = none := by
          cases first with
          | label label => exact absurd rfl remark
          | _ => rfl
        rw [unlabelled, Option.map_none, Option.toList_none, List.map_nil, List.nil_append, ih]
        refine List.map_congr_left (fun entry _ => ?_)
        simp [DataSection.landing, remark]

theorem dataLabels_landed (code : Code) (data : List DataSection) :
    (dataLabels data).map (fun entry => (entry.1, LabelTarget.spot code data entry.2)) =
      dataLabels (data.map DataSection.hushed) := by
  rw [dataLabels, dataLabels, List.map_flatMap, List.zipIdx_map, List.flatMap_map]
  refine List.flatMap_congr (fun entry member => ?_)
  obtain ⟨region, number⟩ := entry
  have found := List.mem_zipIdx_iff_getElem?.mp member
  simp only [Prod.map, id_eq, labels_hushed, List.map_map]
  refine List.map_congr_left (fun entry _ => ?_)
  simp [LabelTarget.spot, found]

/-- Sections that differ in texts and comments only declare the same labels at the same spots. -/
theorem dataLabels_hushed {data others : List DataSection} (code other : Code)
    (same : data.map DataSection.hushed = others.map DataSection.hushed) :
    List.Forall₂ (fun entry counterpart => entry.1 = counterpart.1 ∧
        LabelTarget.spot other others counterpart.2 = LabelTarget.spot code data entry.2)
      (dataLabels data) (dataLabels others) := by
  have landed := (dataLabels_landed other others).trans
    (same ▸ (dataLabels_landed code data).symm)
  refine (Paired.of_map_eq landed).imp ?_
  rintro entry counterpart ⟨_, _, both⟩
  rw [Prod.mk.injEq] at both
  exact ⟨both.1.symm, both.2⟩

end Data

end TestProgram
