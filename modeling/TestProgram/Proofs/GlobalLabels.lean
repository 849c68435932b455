/-
# TestProgram.Proofs.GlobalLabels -- the table of global labels is exact

When the three phases of a template have run, its global labels are written into one table: those
of the data sections first, then those of the sequences in order.  `globalEntries` is the list of
what is to be written, one entry for each label and so perhaps several of one name.

Writing an entry either succeeds, and then the table has it besides what it had, or is refused
since its name is there already (`Registers`).  This passes through every walk that writes
entries (`Registers.bind`, `foldlM_registers`), so the whole registration succeeds exactly when
all names differ, and the table is then the list up to order (`ofAll_registers`).  As no name is
in it twice, looking up a name gives the one place where that label stands
(`global_labels_exact`).
-/
import TestProgram.Proofs.Generation
import Mathlib.Data.List.Nodup

namespace TestProgram

set_option autoImplicit false

/-! ## Tables without repeated names -/

namespace KeyMap

variable {α : Type}

def names (table : KeyMap α) : List String :=
  table.map Prod.fst

/-- No name is in the table twice. -/
def Distinct (table : KeyMap α) : Prop :=
  (names table).Nodup

@[simp] theorem names_nil : names ([] : KeyMap α) = [] := rfl

@[simp] theorem names_cons (entry : String × α) (table : KeyMap α) :
    names (entry :: table) = entry.1 :: names table := rfl

@[simp] theorem names_append (first second : KeyMap α) :
    names (first ++ second) = names first ++ names second :=
  List.map_append

theorem mem_names_of_mem {table : KeyMap α} {name : String} {value : α}
    (member : (name, value) ∈ table) : name ∈ names table :=
  List.mem_map_of_mem member

theorem contains_iff {table : KeyMap α} {name : String} :
    table.contains name = true ↔ name ∈ names table := by
  induction table with
  | nil => simp [contains, find?]
  | cons entry rest ih =>
      obtain ⟨first, held⟩ := entry
      by_cases same : name = first
      · simp [contains, find?, same]
      · have rest_only : contains ((first, held) :: rest) name = contains rest name := by
          simp [contains, find?, same]
        rw [rest_only, ih, names_cons, List.mem_cons]
        exact (or_iff_right same).symm

/-- A new entry is put somewhere between the others. -/
theorem insert_perm {table : KeyMap α} {name : String} (value : α)
    (fresh : name ∉ names table) : (table.insert name value).Perm (table ++ [(name, value)]) := by
  apply List.Perm.trans _ (List.perm_append_singleton _ _).symm
  induction table with
  | nil => exact List.Perm.refl _
  | cons entry rest ih =>
      obtain ⟨first, held⟩ := entry
      rw [names_cons, List.mem_cons, not_or] at fresh
      rw [insert, if_neg fresh.1]
      by_cases before : name < first
      · rw [if_pos before]
      · rw [if_neg before]
        exact ((ih fresh.2).cons _).trans (List.Perm.swap _ _ _)

/-- In a table without repeated names every entry is the one that is found by its name. -/
theorem find?_iff_mem {table : KeyMap α} (distinct : Distinct table) {name : String} {value : α} :
    table.find? name = some value ↔ (name, value) ∈ table := by
  refine ⟨mem_of_find?, fun member => ?_⟩
  induction table with
  | nil => cases member
  | cons entry rest ih =>
      obtain ⟨first, held⟩ := entry
      obtain ⟨apart, later⟩ := List.nodup_cons.mp distinct
      rcases List.mem_cons.mp member with here | there
      · cases here
        rw [find?, if_pos rfl]
      · have other : name ≠ first := by
          rintro rfl
          exact apart (mem_names_of_mem there)
        rw [find?, if_neg other]
        exact ih later there

theorem Distinct.of_perm {table other : KeyMap α} (distinct : Distinct table)
    (same : table.Perm other) : Distinct other :=
  (same.map Prod.fst).nodup distinct

end KeyMap

/-! ## Writing entries -/

namespace LabelIndex

/-- What comes of writing entries into the table of global labels: they are in it and all names
differ, or one of the names would be there twice. -/
inductive Registers (index : LabelIndex) (entries : KeyMap LabelTarget) :
    Except Fault LabelIndex → Prop
  | added {after : LabelIndex} (distinct : KeyMap.Distinct (index.globals ++ entries))
      (held : after.globals.Perm (index.globals ++ entries)) : Registers index entries (.ok after)
  | refused {fault : Fault} {name : String} (cause : fault.cause = .globalDeclaredTwice name)
      (twice : 2 ≤ (KeyMap.names (index.globals ++ entries)).count name) :
      Registers index entries (.error fault)

variable {index : LabelIndex}

theorem registers_nothing (distinct : KeyMap.Distinct index.globals) {after : LabelIndex}
    (same : after.globals = index.globals) : Registers index [] (.ok after) := by
  refine .added ?_ ?_
  · rwa [List.append_nil]
  · rw [List.append_nil, same]

/-- One walk after another writes the entries of both. -/
theorem Registers.bind {first second : KeyMap LabelTarget} {outcome : Except Fault LabelIndex}
    {next : LabelIndex → Except Fault LabelIndex} (here : Registers index first outcome)
    (there : ∀ middle : LabelIndex, KeyMap.Distinct middle.globals →
      Registers middle second (next middle)) :
    Registers index (first ++ second) (outcome >>= next) := by
  cases here with
  | @refused fault name cause twice =>
      refine .refused cause ?_
      rw [← List.append_assoc, KeyMap.names_append, List.count_append]
      omega
  | @added middle distinct held =>
      have both : (middle.globals ++ second).Perm (index.globals ++ (first ++ second)) := by
        rw [← List.append_assoc]
        exact held.append_right second
      have later := there middle (distinct.of_perm held.symm)
      show Registers index (first ++ second) (next middle)
      cases came : next middle with
      | error fault =>
          rw [came] at later
          cases later with
          | refused cause twice =>
              refine .refused cause ?_
              rwa [KeyMap.names, ← (both.map Prod.fst).count_eq]
      | ok after =>
          rw [came] at later
          cases later with
          | added also_distinct also_held =>
              exact .added (also_distinct.of_perm both) (also_held.trans both)

theorem Registers.mapError {entries : KeyMap LabelTarget} {outcome : Except Fault LabelIndex}
    (registers : Registers index entries outcome) (location : Option Location) :
    Registers index entries (outcome.mapError (fun fault => fault.locate? location)) := by
  cases registers with
  | added distinct held => exact .added distinct held
  | refused cause twice =>
      refine .refused ?_ twice
      cases location <;> exact cause

/-- A walk writes the entries of its items, one after the other. -/
theorem foldlM_registers {β : Type} {step : LabelIndex → β → Except Fault LabelIndex}
    {entries : β → KeyMap LabelTarget}
    (each : ∀ (index : LabelIndex) (item : β), KeyMap.Distinct index.globals →
      Registers index (entries item) (step index item)) (items : List β) :
    ∀ {index : LabelIndex}, KeyMap.Distinct index.globals →
      Registers index (items.flatMap entries) (items.foldlM step index) := by
  induction items with
  | nil => exact fun distinct => registers_nothing distinct rfl
  | cons item rest ih =>
      intro index distinct
      rw [List.foldlM_cons, List.flatMap_cons]
      exact (each index item distinct).bind (fun _ still => ih still)

theorem addGlobal_registers (distinct : KeyMap.Distinct index.globals) (name : String)
    (target : LabelTarget) : Registers index [(name, target)] (index.addGlobal name target) := by
  rw [addGlobal]
  by_cases known : index.globals.contains name = true
  · rw [if_pos known]
    refine .refused rfl ?_
    have once : 0 < (KeyMap.names index.globals).count name :=
      List.count_pos_iff.mpr (KeyMap.contains_iff.mp known)
    rw [KeyMap.names_append, List.count_append, KeyMap.names_cons, KeyMap.names_nil,
      List.count_singleton_self]
    omega
  · rw [if_neg known]
    have fresh : name ∉ KeyMap.names index.globals := fun member =>
      known (KeyMap.contains_iff.mpr member)
    refine .added ?_ (KeyMap.insert_perm target fresh)
    rw [KeyMap.Distinct, KeyMap.names_append]
    refine List.nodup_append.mpr ⟨distinct, List.nodup_singleton name, ?_⟩
    rintro other member last new rfl
    have same : other = name := List.mem_singleton.mp new
    exact fresh (same ▸ member)

/-- The entry of a label of a data section, if it is global. -/
def dataEntry (entry : Label × LabelTarget) : KeyMap LabelTarget :=
  if entry.1.isGlobal then [(entry.1.name.render, entry.2)] else []

theorem addData_registers (distinct : KeyMap.Distinct index.globals) (label : Label)
    (target : LabelTarget) :
    Registers index (dataEntry (label, target)) (index.addData label target) := by
  rw [addData, dataEntry]
  by_cases visible : label.isGlobal = true
  · simp only [if_pos visible]
    rw [← List.append_nil [(label.name.render, target)]]
    exact (addGlobal_registers distinct _ target).bind
      (fun _ still => registers_nothing still rfl)
  · simp only [if_neg visible]
    exact registers_nothing distinct rfl

/-- The entries of the kept global labels of a line. -/
def lineEntries (target : LabelTarget) (line : Instruction) : KeyMap LabelTarget :=
  (globalLabels line).map (fun placed => (placed.rendered, target))

theorem addInstruction_registers (distinct : KeyMap.Distinct index.globals)
    (target : LabelTarget) (line : Instruction) :
    Registers index (lineEntries target line) (index.addInstruction target line) := by
  rw [addInstruction, lineEntries, List.map_eq_flatMap]
  exact (foldlM_registers (fun _ _ still => addGlobal_registers still _ _) _ distinct).mapError _

/-- The entries of a sequence, each with the place of its line. -/
def sequenceEntries (phase : PhaseKind) (number : Nat) (instructions : Sequence) :
    KeyMap LabelTarget :=
  instructions.zipIdx.flatMap (fun (line, position) =>
    lineEntries (.code phase number position) line)

theorem addFrom_registers (phase : PhaseKind) (number : Nat) (instructions : Sequence) :
    ∀ (position : Nat) {index : LabelIndex}, KeyMap.Distinct index.globals →
      Registers index ((instructions.zipIdx position).flatMap (fun (line, place) =>
          lineEntries (.code phase number place) line))
        (addFrom phase number position index instructions) := by
  induction instructions with
  | nil => exact fun _ _ distinct => registers_nothing distinct rfl
  | cons line rest ih =>
      intro position index distinct
      rw [addFrom, List.zipIdx_cons, List.flatMap_cons]
      exact (addInstruction_registers distinct _ line).bind (fun _ still => ih _ still)

/-- **What registration comes to.**  The entries of the data labels and of the sequences are in
the table, or one of their names occurs twice. -/
theorem ofAll_registers (labels : List (Label × LabelTarget)) (sequences : List NumberedSequence) :
    Registers {} (labels.flatMap dataEntry ++ sequences.flatMap (fun sequence =>
      sequenceEntries sequence.phase sequence.number sequence.instructions))
      (ofAll labels sequences) := by
  have empty : KeyMap.Distinct ({} : LabelIndex).globals := List.nodup_nil
  apply Registers.bind
  · exact foldlM_registers (fun _ entry still => addData_registers still entry.1 entry.2) _ empty
  · intro middle distinct
    exact foldlM_registers (fun _ sequence still =>
      addFrom_registers sequence.phase sequence.number sequence.instructions 0 still) _ distinct

theorem Registers.ok_iff {entries : KeyMap LabelTarget} {outcome : Except Fault LabelIndex}
    (registers : Registers {} entries outcome) :
    (∃ after, outcome = .ok after) ↔ KeyMap.Distinct entries := by
  cases registers with
  | added distinct held => exact ⟨fun _ => distinct, fun _ => ⟨_, rfl⟩⟩
  | @refused fault name cause twice =>
      constructor
      · rintro ⟨_, ok⟩
        cases ok
      · intro distinct
        have once := List.nodup_iff_count_le_one.mp distinct name
        have twice : 2 ≤ (KeyMap.names entries).count name := twice
        omega

end LabelIndex

/-! ## Registration -/

/-- The entries of all global labels of some phases and data sections, in the order in which
they are registered. -/
def globalEntries (phases : List Phase) (data : List DataSection) : KeyMap LabelTarget :=
  (dataLabels data).flatMap LabelIndex.dataEntry ++
    (phases.flatMap Phase.numbered).flatMap (fun sequence =>
      LabelIndex.sequenceEntries sequence.phase sequence.number sequence.instructions)

theorem mem_sequenceEntries {phase : PhaseKind} {number : Nat} {instructions : Sequence}
    {name : String} {target : LabelTarget} :
    (name, target) ∈ LabelIndex.sequenceEntries phase number instructions ↔
      LabelIndex.Globals instructions (.code phase number) name target := by
  simp only [LabelIndex.sequenceEntries, LabelIndex.lineEntries, LabelIndex.Globals,
    LabelIndex.Entry, List.mem_flatMap, List.mem_map, Prod.exists, Prod.mk.injEq,
    List.mem_zipIdx_iff_getElem?]
  constructor
  · rintro ⟨line, position, found, placed, listed, rfl, rfl⟩
    exact ⟨position, line, found, placed, listed, rfl, rfl⟩
  · rintro ⟨position, line, found, placed, listed, rfl, rfl⟩
    exact ⟨line, position, found, placed, listed, rfl, rfl⟩

/-- The entries of a program are where its global labels stand. -/
theorem Program.mem_globalEntries {program : Program}
    (kinds : ∀ kind, (program.phase kind).kind = kind) {name : String} {target : LabelTarget} :
    (name, target) ∈ globalEntries program.phases program.data ↔
      GlobalLabel program.code program.data name target := by
  rw [globalEntries, List.mem_append, List.mem_flatMap, List.mem_flatMap]
  constructor
  · rintro (⟨⟨label, place⟩, listed, entered⟩ | ⟨sequence, listed, entered⟩)
    · obtain ⟨region, directive, rfl, declared⟩ := mem_dataLabels.mp listed
      by_cases visible : label.isGlobal = true
      · rw [LabelIndex.dataEntry, if_pos visible, List.mem_singleton] at entered
        cases entered
        exact .data declared visible
      · rw [LabelIndex.dataEntry, if_neg visible] at entered
        cases entered
    · have here := (Program.mem_numbered kinds).mp listed
      obtain ⟨position, placed, declared, visible, rfl, rfl⟩ :=
        (globals_iff here).mp (mem_sequenceEntries.mp entered)
      exact .code declared visible
  · intro stands
    cases stands with
    | @data region directive label declared visible =>
        refine .inl ⟨(label, .data region directive),
          mem_dataLabels.mpr ⟨region, directive, rfl, declared⟩, ?_⟩
        rw [LabelIndex.dataEntry, if_pos visible]
        exact List.mem_singleton_self _
    | @code phase number position placed declared visible =>
        obtain ⟨line, found, held⟩ := declared
        obtain ⟨instructions, here, there⟩ := Option.bind_eq_some_iff.mp found
        refine .inr ⟨⟨phase, number, instructions⟩, (Program.mem_numbered kinds).mpr here, ?_⟩
        exact mem_sequenceEntries.mpr ((globals_iff here).mpr
          ⟨position, placed, ⟨line, found, held⟩, visible, rfl, rfl⟩)

namespace Session

variable {session : Session} (pre main post : Phase)

theorem register_unfinished (unfinished : session.lifecycle.finish = none) :
    (register pre main post session).1 =
      .error (Fault.of (.finishOutOfOrder session.lifecycle)) := by
  rw [register, Computation.bind_run]
  simp only [finishLifecycle, unfinished]

/-- The books are closed on a session that is at its end and writes no data. -/
theorem register_finished {lifecycle : Lifecycle}
    (finishes : session.lifecycle.finish = some lifecycle) :
    (register pre main post session).1 =
      if session.data.isOpen then .error (Fault.of .dataRegionOpen)
      else (LabelIndex.ofAll (dataLabels session.data.sections)
        ([pre, main, post].flatMap Phase.numbered)).map (fun index =>
          { pre, main, post, data := session.data.sections, index }) := by
  rw [register, Computation.bind_run]
  simp only [finishLifecycle, finishes]
  show ((if session.data.isOpen = true then _ else _ : Action Program)
    { session with lifecycle }).1 = _
  by_cases still_open : session.data.isOpen = true
  · rw [if_pos still_open, if_pos still_open]
    rfl
  · rw [if_neg still_open, if_neg still_open]
    show ((Action.ofExcept (LabelIndex.ofAll (dataLabels session.data.sections)
      ([pre, main, post].flatMap Phase.numbered)) >>= fun index => pure
        { pre, main, post, data := session.data.sections, index } : Action Program) _).1 = _
    rw [Computation.bind_run, Action.ofExcept]
    cases LabelIndex.ofAll (dataLabels session.data.sections)
        ([pre, main, post].flatMap Phase.numbered) with
    | error fault => rfl
    | ok index => rfl

/-- What it takes to register the phases of a session: its lifecycle is at the end, no data
region is open, and no two global labels have one name. -/
structure Registrable (session : Session) (entries : KeyMap LabelTarget) : Prop where
  finishes : session.lifecycle.finish.isSome = true
  closed : session.data.isOpen = false
  distinct : KeyMap.Distinct entries

/-- A registration succeeds with the entries in its table, or fails with a fault of
configuration; on a session that is at its end this is about a name declared twice. -/
theorem register_cases (session : Session) (pre main post : Phase) :
    let entries := globalEntries [pre, main, post] session.data.sections
    (∃ index : LabelIndex, (register pre main post session).1 =
        .ok { pre, main, post, data := session.data.sections, index } ∧
      session.Registrable entries ∧ index.globals.Perm entries) ∨
    ∃ fault, (register pre main post session).1 = .error fault ∧
      fault.kind = .configuration ∧ ¬ session.Registrable entries ∧
      (session.lifecycle.finish.isSome = true → session.data.isOpen = false →
        ∃ name, fault.cause = .globalDeclaredTwice name ∧
          2 ≤ (KeyMap.names entries).count name) := by
  intro entries
  cases finishes : session.lifecycle.finish with
  | none =>
      refine .inr ⟨_, register_unfinished pre main post finishes, rfl, ?_, ?_⟩
      · intro registrable
        have some_end := registrable.finishes
        rw [finishes] at some_end
        cases some_end
      · intro some_end
        cases some_end
  | some lifecycle =>
      have outcome := register_finished pre main post finishes
      by_cases still_open : session.data.isOpen = true
      · rw [if_pos still_open] at outcome
        refine .inr ⟨_, outcome, rfl, ?_, ?_⟩
        · intro registrable
          rw [registrable.closed] at still_open
          cases still_open
        · intro _ closed
          rw [closed] at still_open
          cases still_open
      · rw [if_neg still_open] at outcome
        have registers : LabelIndex.Registers {} entries _ := LabelIndex.ofAll_registers _ _
        have distinct_iff := registers.ok_iff
        cases made : LabelIndex.ofAll (dataLabels session.data.sections)
          ([pre, main, post].flatMap Phase.numbered) with
        | ok index =>
            rw [made] at outcome registers
            cases registers with
            | added distinct held =>
                exact .inl ⟨index, outcome, ⟨by rw [finishes]; rfl, by simpa using still_open,
                  distinct⟩, held⟩
        | error fault =>
            rw [made] at outcome registers distinct_iff
            cases registers with
            | @refused _ name cause twice =>
                refine .inr ⟨fault, outcome, ?_, ?_, fun _ _ => ⟨name, cause, twice⟩⟩
                · rw [Fault.kind, cause]
                  rfl
                · intro registrable
                  obtain ⟨_, ok⟩ := distinct_iff.mpr registrable.distinct
                  cases ok

theorem link_globals {program : Program} {session after : Session} {generated : Generated}
    (run : link program session = (.ok generated, after)) :
    generated.globals = program.index.globals := by
  obtain ⟨_, _, _, run⟩ := Computation.bind_ok_iff.mp run
  obtain ⟨_, _, _, run⟩ := Computation.bind_ok_iff.mp run
  obtain ⟨_, _, _, run⟩ := Computation.bind_ok_iff.mp run
  cases run
  rfl

end Session

/-! ## Templates -/

/-- The table of a generated template holds these entries: each name is that of one global
label, and its address is the place where this label stands. -/
structure Generated.Exact (generated : Generated) (entries : KeyMap LabelTarget) : Prop where
  distinct : KeyMap.Distinct entries
  held : generated.globals.Perm entries
  address : ∀ name target, generated.globals.find? name = some target ↔ (name, target) ∈ entries
  stands : ∀ name target, (name, target) ∈ entries ↔
    GlobalLabel generated.code generated.data name target
  absent : ∀ name, (∀ target, ¬ GlobalLabel generated.code generated.data name target) →
    generated.globals.contains name = false

theorem Template.generate_run {ε : Type} (template : Template ε) (studio : Studio ε)
    {after : Studio ε} {pre main post : Phase}
    (run : template.phases studio = (.ok (pre, main, post), after)) :
    template.generate studio =
      (Act.session (Session.register pre main post) >>= fun program =>
        Act.session (Session.link program)) after := by
  rw [Template.generate, Computation.bind_run, Template.program_run, run, Computation.bind_run]

section Registered

variable {ε : Type} {template : Template ε} {studio after : Studio ε} {pre main post : Phase}
  (run : template.phases studio = (.ok (pre, main, post), after))

include run

/-- A template whose phases cannot be registered is not generated. -/
theorem Template.generate_unregistered {fault : Fault}
    (failed : (Session.register pre main post after.session).1 = .error fault) :
    (template.generate studio).1 = .error fault := by
  rw [Template.generate_run template studio run, Computation.bind_run]
  rcases registering : Session.register pre main post after.session with ⟨outcome, last⟩
  rw [registering] at failed
  cases failed
  simp only [Act.session, registering]

theorem Template.generate_exact {program : Program} {entries : KeyMap LabelTarget}
    (registered : (Session.register pre main post after.session).1 = .ok program)
    (entries_are : entries = globalEntries program.phases program.data)
    (distinct : KeyMap.Distinct entries) (held : program.index.globals.Perm entries)
    {generated : Generated} (outcome : (template.generate studio).1 = .ok generated) :
    generated.Exact entries := by
  rcases registering : Session.register pre main post after.session with ⟨_, last⟩
  rw [registering] at registered
  cases registered
  have programmed : template.program studio = (.ok program, { after with session := last }) := by
    rw [Template.program_run, run]
    simp only [Act.session, registering]
  obtain ⟨kinds, _⟩ := Template.program_ok programmed
  have linked : (Session.link program last).1 = .ok generated := by
    rw [← outcome, Template.generate, Computation.bind_run, programmed]
    rfl
  obtain ⟨bound, data⟩ := Session.link_ok (Prod.ext linked rfl)
  have globals : generated.globals.Perm entries := by
    rw [Session.link_globals (Prod.ext linked rfl)]
    exact held
  have unbound : ∀ phase, (generated.code phase).map (List.map Instruction.unbound) =
      (program.code phase).map (List.map Instruction.unbound) :=
    fun phase => LabelIndex.bindPhase_unbound (bound phase)
  have stands : ∀ name target, (name, target) ∈ entries ↔
      GlobalLabel generated.code generated.data name target := by
    intro name target
    rw [entries_are, Program.mem_globalEntries kinds, data]
    apply GlobalLabel.congr
    exact ⟨Code.Declares.of_unbound (fun phase => (unbound phase).symm),
      Code.Declares.of_unbound unbound⟩
  have address : ∀ name target, generated.globals.find? name = some target ↔
      (name, target) ∈ entries := by
    intro name target
    rw [KeyMap.find?_iff_mem (distinct.of_perm globals.symm)]
    exact globals.mem_iff
  refine ⟨distinct, globals, address, stands, fun name nowhere => ?_⟩
  cases found : generated.globals.find? name with
  | none => rw [KeyMap.contains, found]; rfl
  | some target =>
      have stands_there := (stands name target).mp ((address name target).mp found)
      exact absurd stands_there (nowhere target)

end Registered

/-- **The table of global labels is exact.**  Once the three phases of a template have run, their
registration succeeds exactly when the session is at its end and no two of the global labels, of
the sequences and of the data sections together, are printed with one name; it fails with a fault
of configuration, and then so does the template.  A template that is generated has all global
labels in its table, each with the place where it stands, and nothing else. -/
theorem global_labels_exact {ε : Type} (template : Template ε) (studio after : Studio ε)
    (pre main post : Phase) (run : template.phases studio = (.ok (pre, main, post), after)) :
    let entries := globalEntries [pre, main, post] after.session.data.sections
    ((∃ program, (Session.register pre main post after.session).1 = .ok program) ↔
      after.session.Registrable entries) ∧
    (∀ fault, (Session.register pre main post after.session).1 = .error fault →
      fault.kind = .configuration ∧ (template.generate studio).1 = .error fault ∧
      (after.session.lifecycle.finish.isSome = true → after.session.data.isOpen = false →
        ∃ name, fault.cause = .globalDeclaredTwice name ∧
          2 ≤ (KeyMap.names entries).count name)) ∧
    ∀ generated, (template.generate studio).1 = .ok generated → generated.Exact entries := by
  intro entries
  rcases Session.register_cases after.session pre main post with
    ⟨index, registered, registrable, held⟩ | ⟨fault, failed, kind, not_so, twice⟩
  · refine ⟨⟨fun _ => registrable, fun _ => ⟨_, registered⟩⟩, ?_, ?_⟩
    · intro fault failed
      rw [registered] at failed
      cases failed
    · intro generated outcome
      exact Template.generate_exact run registered rfl registrable.distinct held outcome
  · refine ⟨⟨?_, fun registrable => absurd registrable not_so⟩, ?_, ?_⟩
    · rintro ⟨program, registered⟩
      rw [failed] at registered
      cases registered
    · intro other also_failed
      rw [failed] at also_failed
      cases also_failed
      exact ⟨kind, Template.generate_unregistered run failed, twice⟩
    · intro generated outcome
      rw [Template.generate_unregistered run failed] at outcome
      cases outcome

/-- A table in the data, a global label of the given name in the main phase, and a local one. -/
def tableAnd (name : String) : Template Unit where
  pre := do
    Act.configureData { target := "m" } (.caller "two" 1 1) (pure ())
    Act.dataRegion {} (.caller "two" 2 1) (Act.data do
      DataDesk.text "words"
      DataDesk.label "table" true
      DataDesk.label "row" false)
  main := Act.session do
    Session.addCall { name := "nop" } (.caller "two" 3 1)
    Session.declareGlobalLabel name (.caller "two" 4 1)
    Session.declareLabel "inner" (.caller "two" 5 1)
    Session.addCall { name := "jump", arguments := [.label (.named "table" BlockId.root)] }
      (.caller "two" 6 1)
  post := pure ()

/-- The entries of a template whose phases run, and whether it is generated. -/
def registering (template : Template Unit) : Option (KeyMap LabelTarget) × Bool :=
  match template.phases ⟨Session.new {}, ()⟩ with
  | (.ok (pre, main, post), after) =>
      (some (globalEntries [pre, main, post] after.session.data.sections),
        (template.generate ⟨Session.new {}, ()⟩).1.isOk)
  | (.error _, _) => (none, false)

theorem global_labels_exact_two :
    ∃ generated, ((tableAnd "start").generate ⟨Session.new {}, ()⟩).1 = .ok generated ∧
      generated.globals.find? "table" = some (.data 0 1) ∧
      generated.globals.find? "start" = some (.code .main 0 1) ∧
      generated.globals.find? "inner" = none ∧ generated.globals.find? "row" = none := by
  have read : registering (tableAnd "start") =
      (some [("table", .data 0 1), ("start", .code .main 0 1)], true) := by
    decide +kernel
  unfold registering at read
  rcases run : (tableAnd "start").phases ⟨Session.new {}, ()⟩ with
    ⟨_ | ⟨pre, main, post⟩, after⟩
  · rw [run] at read
    cases read
  · rw [run] at read
    obtain ⟨entries, succeeds⟩ := Prod.mk.inj read
    obtain ⟨generated, _, generates⟩ := Act.exists_ok succeeds
    have outcome : ((tableAnd "start").generate ⟨Session.new {}, ()⟩).1 = .ok generated :=
      congrArg Prod.fst generates
    have exactly := (global_labels_exact (tableAnd "start") _ after pre main post run).2.2
      generated outcome
    rw [Option.some.inj entries] at exactly
    have nowhere : ∀ name, name ∉ ["table", "start"] → generated.globals.find? name = none := by
      intro name other
      cases found : generated.globals.find? name with
      | none => rfl
      | some target =>
          have listed := KeyMap.mem_names_of_mem ((exactly.address name target).mp found)
          exact absurd listed other
    refine ⟨generated, outcome, ?_, ?_, nowhere _ (by decide), nowhere _ (by decide)⟩
    · exact (exactly.address _ _).mpr (by decide)
    · exact (exactly.address _ _).mpr (by decide)

/-- A label of the code cannot have the name of one of the data. -/
example : registering (tableAnd "table") =
    (some [("table", .data 0 1), ("table", .code .main 0 1)], false) := by
  decide +kernel

end TestProgram
