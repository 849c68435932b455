/-
# TestProgram.Proofs.Reruns -- generating a template file again

A template file keeps the distributions and the situations that it has built, also those of a run
that failed.  They make no difference to a later run: what is remembered of distributions is what
would be built again (`buildAll_same`), and a situation is not looked for before it was put into
the table anew, so that a file which has been prepared remembers the same as if it were prepared
for the first time (`prepare_again`).  Nothing else is carried from one run to the next.
-/
import TestProgram.Proofs.FileRuns
import TestProgram.Proofs.FileOperations
import TestProgram.Proofs.RememberedDistributions

namespace TestProgram.TemplateFile

set_option autoImplicit false

open Act TestProgram.Computation

/-! ## Reading the distributions -/

section Reads

variable {α β : Type}

/-- The computation does nothing, and it depends on the distributions that are remembered only. -/
def Reads (act : Run α) : Prop :=
  ∀ first second : Studio Memory, first.memory.distributions = second.memory.distributions →
    ∃ outcome, act first = (outcome, first) ∧ act second = (outcome, second)

theorem reads_ofExcept (outcome : Except Fault α) : Reads (Act.ofExcept outcome : Run α) :=
  fun _ _ _ => ⟨outcome, rfl, rfl⟩

theorem Reads.bind {act : Run α} {next : α → Run β} (here : Reads act)
    (there : ∀ value, Reads (next value)) : Reads (act >>= next) := by
  intro first second same
  obtain ⟨outcome, run, also_run⟩ := here first second same
  rw [bind_run, bind_run, run, also_run]
  cases outcome with
  | error fault => exact ⟨.error fault, rfl, rfl⟩
  | ok value => exact there value first second same

theorem Reads.mapM {step : α → Run β} (each : ∀ item, Reads (step item)) :
    ∀ items : List α, Reads (items.mapM step)
  | [] => by
      rw [List.mapM_nil]
      exact reads_ofExcept (.ok [])
  | item :: rest => by
      rw [List.mapM_cons]
      exact (each item).bind (fun first => (Reads.mapM each rest).bind (fun others =>
        reads_ofExcept (.ok (first :: others))))

end Reads

theorem reads_distributionNamed (name : String) : Reads (distributionNamed name) := by
  have looks : ∀ studio, distributionNamed name studio =
      (remembered studio.memory.distributions name, studio) := by
    intro studio
    rw [distributionNamed, remembered, bind_run, get_run]
    cases held : studio.memory.distributions.find? name <;> simp only [held] <;> rfl
  intro first second same
  exact ⟨_, looks first, same ▸ looks second⟩

theorem reads_situationAttribute (name : String) (value : Attribute) :
    Reads (situationAttribute name value) := by
  unfold situationAttribute
  split
  · split
    · exact (reads_distributionNamed _).bind (fun distribution =>
        reads_ofExcept (.ok (SituationAttribute.distribution distribution)))
    · exact reads_ofExcept (.error (Fault.of (.situationAttributeShape name)))
  · exact (reads_ofExcept _).bind (fun scalar =>
      reads_ofExcept (.ok (SituationAttribute.scalar scalar)))

/-! ## Situations -/

/-- The studio with a situation put into the table. -/
def filing (studio : Studio Memory) (key : String) (situation : Situation) : Studio Memory :=
  { studio with memory := { studio.memory with
      situations := studio.memory.situations.insert key situation } }

/-- What is put into the table after something was read depends on the distributions only. -/
theorem Reads.filed {α : Type} {act : Run α} (reads : Reads act) {next : α → Run Unit}
    {key : String} {make : α → Situation}
    (files : ∀ made studio, next made studio = (.ok (), filing studio key (make made)))
    {first second : Studio Memory}
    (same : first.memory.distributions = second.memory.distributions) :
    (∃ fault, (act >>= next) first = (.error fault, first) ∧
      (act >>= next) second = (.error fault, second)) ∨
    ∃ situation, (act >>= next) first = (.ok (), filing first key situation) ∧
      (act >>= next) second = (.ok (), filing second key situation) := by
  obtain ⟨outcome, run, also_run⟩ := reads first second same
  rw [bind_run, bind_run, run, also_run]
  cases outcome with
  | error fault => exact .inl ⟨fault, rfl, rfl⟩
  | ok made => exact .inr ⟨make made, files made first, files made second⟩

/-- A situation is put into the table, or the studio stays as it is; which of it, and what the
situation is, depends on the distributions that are remembered only. -/
theorem prepareSituation_cases (key : String) (spec : FileSituation) {first second : Studio Memory}
    (same : first.memory.distributions = second.memory.distributions) :
    (∃ fault, prepareSituation key spec first = (.error fault, first) ∧
      prepareSituation key spec second = (.error fault, second)) ∨
    ∃ situation, prepareSituation key spec first = (.ok (), filing first key situation) ∧
      prepareSituation key spec second = (.ok (), filing second key situation) := by
  unfold prepareSituation
  cases spec.attributes.map? with
  | none => exact .inl ⟨_, rfl, rfl⟩
  | some entries =>
      exact (Reads.mapM (fun entry => (reads_situationAttribute entry.1 entry.2).bind
        (fun made => reads_ofExcept (.ok (entry.1, made)))) entries).filed
          (fun _ _ => rfl) same

/-! ## What earlier runs leave -/

/-- What runs of a file may have left to it: distributions that have grown, and situations under
keys of the file. -/
structure Left (file : TemplateFile) (memory : Memory) : Prop where
  distributions : Grown file.distributions memory.distributions
  sorted : memory.situations.Sorted
  keyed : ∀ key, key ∉ file.situations.map Prod.fst → memory.situations.find? key = none

/-- The computation leaves the like of what it has found. -/
abbrev Leaves {α : Type} (file : TemplateFile) (act : Run α) : Prop :=
  Keeps (fun studio : Studio Memory => Left file studio.memory) act

theorem left_nothing (file : TemplateFile) : Left file {} :=
  ⟨.nil, List.Pairwise.nil, fun _ _ => rfl⟩

variable {file : TemplateFile}

theorem Left.filing {studio : Studio Memory} (left : Left file studio.memory) {key : String}
    (listed : key ∈ file.situations.map Prod.fst) (situation : Situation) :
    Left file (filing studio key situation).memory where
  distributions := left.distributions
  sorted := KeyMap.sorted_insert left.sorted key situation
  keyed := by
    intro other unlisted
    refine (KeyMap.find?_insert_of_ne _ _ ?_).trans (left.keyed other unlisted)
    rintro rfl
    exact unlisted listed

/-- Two studios that differ at most in the situations under some keys. -/
structure Alike (known : String → Prop) (first second : Studio Memory) : Prop where
  session : first.session = second.session
  distributions : first.memory.distributions = second.memory.distributions
  situations : ∀ key, known key →
    first.memory.situations.find? key = second.memory.situations.find? key

theorem Alike.filing {known : String → Prop} {first second : Studio Memory}
    (alike : Alike known first second) (key : String) (situation : Situation) :
    Alike (fun other => other = key ∨ known other) (filing first key situation)
      (filing second key situation) where
  session := alike.session
  distributions := alike.distributions
  situations := by
    intro other which
    show (KeyMap.insert _ _ _).find? other = (KeyMap.insert _ _ _).find? other
    by_cases same : other = key
    · rw [same, KeyMap.find?_insert_self, KeyMap.find?_insert_self]
    · rw [KeyMap.find?_insert_of_ne _ _ same, KeyMap.find?_insert_of_ne _ _ same]
      exact alike.situations other (which.resolve_left same)

/-- Preparing the same situations comes to the same, and leaves studios alike that were alike,
under the keys of these situations too if it succeeds. -/
theorem prepareSituations_alike {entries : KeyMap FileSituation}
    (listed : ∀ entry ∈ entries, entry.1 ∈ file.situations.map Prod.fst)
    {known : String → Prop} {first second : Studio Memory} (alike : Alike known first second)
    (left : Left file first.memory) (also_left : Left file second.memory) :
    ∃ outcome after last,
      (entries.forM (fun (key, spec) => prepareSituation key spec)) first = (outcome, after) ∧
      (entries.forM (fun (key, spec) => prepareSituation key spec)) second = (outcome, last) ∧
      Left file after.memory ∧ Left file last.memory ∧ after.session = last.session ∧
      (outcome = .ok () →
        Alike (fun key => key ∈ entries.map Prod.fst ∨ known key) after last) := by
  induction entries generalizing known first second with
  | nil =>
      exact ⟨.ok (), first, second, rfl, rfl, left, also_left, alike.session, fun _ =>
        ⟨alike.session, alike.distributions, fun key which =>
          alike.situations key (which.resolve_left (by simp))⟩⟩
  | cons entry rest ih =>
      obtain ⟨key, spec⟩ := entry
      have here := listed _ List.mem_cons_self
      rw [List.forM_eq_forM, List.forM_cons, bind_run, bind_run]
      rcases prepareSituation_cases key spec alike.distributions with
        ⟨fault, run, also_run⟩ | ⟨situation, run, also_run⟩
      · simp only [run, also_run]
        exact ⟨_, _, _, rfl, rfl, left, also_left, alike.session, fun failed => by cases failed⟩
      · simp only [run, also_run]
        obtain ⟨outcome, after, last, ran, also_ran, kept, also_kept, sessions, alike_still⟩ :=
          ih (fun entry member => listed entry (List.mem_cons_of_mem _ member))
            (alike.filing key situation) (left.filing here situation)
            (also_left.filing here situation)
        refine ⟨outcome, after, last, ran, also_ran, kept, also_kept, sessions, fun succeeded => ?_⟩
        obtain ⟨session, distributions, situations⟩ := alike_still succeeded
        refine ⟨session, distributions, fun other which => situations other ?_⟩
        simpa [or_assoc, or_left_comm] using which

/-- Studios that differ nowhere. -/
theorem Alike.eq {first second : Studio Memory}
    (alike : Alike (fun key => key ∈ file.situations.map Prod.fst) first second)
    (left : Left file first.memory) (also_left : Left file second.memory) : first = second := by
  have situations : first.memory.situations = second.memory.situations := by
    refine left.sorted.ext also_left.sorted (fun key => ?_)
    by_cases listed : key ∈ file.situations.map Prod.fst
    · exact alike.situations key listed
    · rw [left.keyed key listed, also_left.keyed key listed]
  obtain ⟨_, ⟨_, _⟩⟩ := first
  obtain ⟨_, ⟨_, _⟩⟩ := second
  cases alike.session
  cases alike.distributions
  cases situations
  rfl

/-! ## Preparing again -/

theorem runs_same {body : Run Unit} (leaves : Leaves file body) {studio : Studio Memory}
    (left : Left file studio.memory) :
    ∃ outcome after last, body studio = (outcome, after) ∧ body studio = (outcome, last) ∧
      Left file after.memory ∧ after.session = last.session ∧
      (outcome = .ok () → after = last) :=
  ⟨_, _, _, rfl, rfl, leaves studio left, rfl, fun _ => rfl⟩

theorem buildings_alike (session : Session) {memory : Memory} (left : Left file memory) :
    ∃ outcome after last,
      building (buildAll file.distributions) { session, memory } = (outcome, after) ∧
      building (buildAll file.distributions) { session, memory := {} } = (outcome, last) ∧
      Left file after.memory ∧ Left file last.memory ∧ after.session = last.session ∧
      (outcome = .ok () → Alike (fun _ => False) after last) := by
  obtain ⟨outcomes, grown, tables⟩ := buildAll_same left.distributions .nil
  obtain ⟨_, also_grown, _⟩ := buildAll_same (.nil : Grown file.distributions []) .nil
  rcases run : buildAll file.distributions memory.distributions with ⟨outcome, built⟩
  rcases also_run : buildAll file.distributions [] with ⟨other, also_built⟩
  rw [run, also_run] at outcomes tables
  rw [run] at grown
  rw [also_run] at also_grown
  cases outcomes
  refine ⟨outcome, { session, memory := { memory with distributions := built } },
    { session, memory := { distributions := also_built } }, ?_, ?_,
    ⟨grown, left.sorted, left.keyed⟩, ⟨also_grown, List.Pairwise.nil, fun _ _ => rfl⟩, rfl,
    fun succeeded => ⟨rfl, tables succeeded, fun _ never => never.elim⟩⟩
  · simp only [building, run]
  · simp only [building, also_run]

/-- **Preparing again.**  With whatever earlier runs have left the preparation of a file comes to
the same as without, and if it succeeds the studio is the same as well. -/
theorem prepare_again (session : Session) {memory : Memory} (left : Left file memory) :
    ∃ outcome after last, file.prepare { session, memory } = (outcome, after) ∧
      file.prepare { session, memory := {} } = (outcome, last) ∧
      Left file after.memory ∧ after.session = last.session ∧
      (outcome = .ok () → after = last) := by
  obtain ⟨outcome, built, also_built, builds, also_builds, left_built, left_also_built, sessions,
    alike⟩ := buildings_alike session left
  unfold prepare
  rw [bind_run, bind_run, builds, also_builds]
  cases outcome with
  | error fault =>
      exact ⟨.error fault, _, _, rfl, rfl, left_built, sessions, fun failed => by cases failed⟩
  | ok _ =>
      have listed : ∀ entry ∈ file.situations, entry.1 ∈ file.situations.map Prod.fst :=
        fun entry member => List.mem_map.mpr ⟨entry, member, rfl⟩
      obtain ⟨outcome, after, last, ran, also_ran, kept, also_kept, sessions, alike⟩ :=
        prepareSituations_alike listed (alike rfl) left_built left_also_built
      dsimp only
      rw [bind_run, bind_run, ran, also_ran]
      cases outcome with
      | error fault =>
          exact ⟨.error fault, _, _, rfl, rfl, kept, sessions, fun failed => by cases failed⟩
      | ok _ =>
          obtain ⟨session, distributions, situations⟩ := alike rfl
          have same : after = last :=
            Alike.eq ⟨session, distributions, fun key listed => situations key (.inl listed)⟩
              kept also_kept
          subst same
          refine runs_same (?_ : Leaves file _) kept
          have defaulted : Leaves file (file.defaults.forM prepareDefault) :=
            Keeps.forM (keeps_prepareDefault (Studio.robust_memory _)) _
          split
          · exact (keeps_prepareData (Studio.robust_memory _) _).bind (fun _ => defaulted)
          · exact (keeps_pure ()).bind (fun _ => defaulted)

/-! ## Generating again -/

theorem keeps_afterwards (number : Nat) (outcome : Except Fault Unit) :
    Leaves file (afterwards file number outcome) := by
  have robust := Studio.robust_memory (Left file)
  have session_only : ∀ {α : Type} (action : Action α), Leaves file (session action : Run α) :=
    fun _ _ left => left
  refine (session_only _).bind (fun _ => ?_)
  refine (keeps_runPhase robust (keeps_runItems robust number file.main) .main).bind (fun _ => ?_)
  refine (keeps_runPhase robust (keeps_runItems robust number file.post) .post).bind (fun _ => ?_)
  exact (session_only _).bind (fun _ => session_only _)

/-- What earlier runs have left makes no difference to a run, and the run leaves the like. -/
theorem generate_again {memory : Memory} (left : Left file memory) (number : Nat)
    (settings : Settings) :
    (file.generate number settings memory).1 = (file.generate number settings {}).1 ∧
      Left file (file.generate number settings memory).2.memory := by
  obtain ⟨outcome, after, last, run, also_run, kept, sessions, same⟩ :=
    prepare_again (begun settings memory).session left
  replace run : file.prepare (begun settings memory) = (outcome, after) := run
  replace also_run : file.prepare (begun settings {}) = (outcome, last) := also_run
  rw [generate_run, generate_run, bind_run, bind_run]
  simp only [attempt, bind_run, run, also_run]
  cases outcome with
  | error fault => exact ⟨rfl, keeps_afterwards number (.error fault) after kept⟩
  | ok _ =>
      cases same rfl
      refine ⟨rfl, keeps_afterwards number _ _ ?_⟩
      exact keeps_runItems (Studio.robust_memory _) number file.pre after kept

/-- What comes of running a file with some settings after another, each time with what the runs
before have left. -/
def reruns (file : TemplateFile) (number : Nat) : List Settings → Memory →
    List (Except Fault Generated)
  | [], _ => []
  | settings :: rest, memory =>
      let (outcome, studio) := file.generate number settings memory
      outcome :: reruns file number rest studio.memory

theorem reruns_eq {memory : Memory} (left : Left file memory) (number : Nat)
    (runs : List Settings) : reruns file number runs memory =
      runs.map (fun settings => (file.generate number settings {}).1) := by
  induction runs generalizing memory with
  | nil => rfl
  | cons settings rest ih =>
      obtain ⟨same, still_left⟩ := generate_again left number settings
      rw [reruns, List.map_cons, ← same]
      exact congrArg _ (ih still_left)

/-- **A template file can be generated again.**  However often a file is run and with whatever
settings, each run comes to what a first run with its settings comes to, be it something generated
or a fault.  So if the settings are always the same, all runs come to the same. -/
theorem generates_again (file : TemplateFile) (number : Nat) :
    (∀ runs : List Settings, reruns file number runs {} =
      runs.map (fun settings => (file.generate number settings {}).1)) ∧
    ∀ (settings : Settings) (times : Nat),
      reruns file number (List.replicate times settings) {} =
        List.replicate times (file.generate number settings {}).1 := by
  refine ⟨fun runs => reruns_eq (left_nothing file) number runs, fun settings times => ?_⟩
  rw [reruns_eq (left_nothing file), List.map_replicate]

/-- The first distribution is built before the second one is found to refer to itself. -/
def builtInPart : TemplateFile where
  distributions :=
    [("coin", [{ value := .list [.integer 0, .integer 1] }]),
     ("loop", [{ value := .map [("dist", .text "loop")] }])]

example : ((builtInPart.generate 0 {} {}).2.memory.distributions.map Prod.fst) = ["coin"] := by
  decide +kernel

end TestProgram.TemplateFile
