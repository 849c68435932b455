/-
# TestProgram.Proofs.RememberedDistributions -- distributions that were built before

What a name stands for does not depend on what has been built already: `standsFor` says what it is
if nothing is remembered, a distribution or the fault that is met first on the way to one.

A table of remembered distributions has grown by entries that refer only to entries before them
(`Grown`), also when the building that filled it has failed.  So what is being built is never
remembered, what is remembered is what its name stands for (`Grown.stands`), and building with
such a table comes to what building without one comes to (`buildNamed_tracks`).  When all
distributions of a file are built, what is remembered then no longer depends on what was before
(`buildAll_same`).
-/
import TestProgram.Proofs.Computation
import TestProgram.Proofs.Tables
import TestProgram.TemplateFile.Distributions

namespace TestProgram.TemplateFile

set_option autoImplicit false

open TestProgram.Computation

/-! ## What a name stands for -/

/-- How a distribution comes of others. -/
abbrev Nested := String → Except Fault Distribution

/-- What a range contributes, given what the others stand for. -/
def valueOf (name : String) (nested : Nested) (value : Attribute) : Except Fault RangeValue :=
  match value with
  | .list items => do
      let members ← items.mapM (Attribute.toScalar "collection member")
      .ok (.collection members)
  | .map _ =>
      match value.distributionName? with
      | some other => do
          let distribution ← nested other
          .ok (.nested distribution)
      | none => .error (Fault.of (.rangeValueShape name))
  | _ => do
      let scalar ← value.toScalar "range value"
      .ok (.scalar scalar)

def rangeOf (name : String) (nested : Nested) (spec : FileRange) : Except Fault ValueRange := do
  let value ← valueOf name nested spec.value
  ValueRange.of value spec.bias

/-- The distribution of some ranges, given what the others stand for. -/
def distributionOf (name : String) (nested : Nested) (specs : List FileRange) :
    Except Fault Distribution := do
  let ranges ← specs.mapM (rangeOf name nested)
  (Distribution.build ranges).mapError
    (fun fault => fault.withNote s!"in distribution '{name}'")

/-- What a name stands for if nothing is remembered. -/
def standsFor (specs : KeyMap (List FileRange)) (visiting : List String) (name : String) :
    Except Fault Distribution :=
  if visiting.contains name then .error (Fault.of (.selfReference name))
  else
    match _found : specs.find? name with
    | none => .error (Fault.of (.unknownDistribution name))
    | some ranges => distributionOf name (standsFor (specs.erase name) (name :: visiting)) ranges
termination_by specs.length
decreasing_by exact length_erase_lt _found

/-- What a name stands for if it is remembered. -/
def remembered (built : KeyMap Distribution) : Nested := fun name =>
  match built.find? name with
  | some distribution => .ok distribution
  | none => .error (Fault.of (.unknownDistribution name))

theorem remembered_ok_iff {built : KeyMap Distribution} {name : String}
    {distribution : Distribution} :
    remembered built name = .ok distribution ↔ built.find? name = some distribution := by
  unfold remembered
  cases built.find? name <;> simp

section Mono

variable {name : String} {fewer more : Nested}
  (known : ∀ other made, fewer other = .ok made → more other = .ok made)

include known

theorem valueOf_mono {value : Attribute} {made : RangeValue}
    (valued : valueOf name fewer value = .ok made) : valueOf name more value = .ok made := by
  cases value with
  | map entries =>
      unfold valueOf at valued ⊢
      dsimp only at valued ⊢
      cases named : (Attribute.map entries).distributionName? with
      | some other =>
          rw [named] at valued
          obtain ⟨distribution, nested, same⟩ := Except.bind_ok_iff.mp valued
          exact Except.bind_ok_iff.mpr ⟨distribution, known _ _ nested, same⟩
      | none =>
          rw [named] at valued
          exact valued
  | _ => exact valued

/-- Where more is known, a distribution that could be made already is made the same. -/
theorem distributionOf_mono {specs : List FileRange} {distribution : Distribution}
    (made : distributionOf name fewer specs = .ok distribution) :
    distributionOf name more specs = .ok distribution := by
  obtain ⟨ranges, walked, built⟩ := Except.bind_ok_iff.mp made
  refine Except.bind_ok_iff.mpr ⟨ranges, ?_, built⟩
  refine Except.mapM_ok_iff.mpr ((Except.mapM_ok_iff.mp walked).imp (fun spec range here => ?_))
  obtain ⟨value, valued, ranged⟩ := Except.bind_ok_iff.mp here
  exact Except.bind_ok_iff.mpr ⟨value, valueOf_mono known valued, ranged⟩

end Mono

/-! ## What is remembered -/

/-- The table has grown by distributions that refer only to those before them. -/
inductive Grown (specs : KeyMap (List FileRange)) : KeyMap Distribution → Prop
  | nil : Grown specs []
  | insert {built : KeyMap Distribution} {name : String} {ranges : List FileRange}
      {distribution : Distribution} (grown : Grown specs built)
      (new : built.find? name = none) (found : specs.find? name = some ranges)
      (made : distributionOf name (remembered built) ranges = .ok distribution) :
      Grown specs (built.insert name distribution)

/-- What is left of the specifications when those of the visited names are taken out. -/
def Besides (specs : KeyMap (List FileRange)) (visiting : List String)
    (left : KeyMap (List FileRange)) : Prop :=
  ∀ name, name ∉ visiting → left.find? name = specs.find? name

theorem besides_nothing (specs : KeyMap (List FileRange)) : Besides specs [] specs :=
  fun _ _ => rfl

variable {specs left : KeyMap (List FileRange)} {visiting : List String}
  {built : KeyMap Distribution} {name : String}

theorem Besides.erase (besides : Besides specs visiting left) (name : String) :
    Besides specs (name :: visiting) (left.erase name) := by
  intro other unvisited
  obtain ⟨differs, outside⟩ := not_or.mp (mt List.mem_cons.mpr unvisited)
  rw [KeyMap.find?_erase_of_ne left differs, besides other outside]

theorem Grown.sorted (grown : Grown specs built) : built.Sorted := by
  induction grown with
  | nil => exact List.Pairwise.nil
  | insert _ _ _ _ ih => exact KeyMap.sorted_insert ih _ _

theorem standsFor_visited (visited : name ∈ visiting) :
    standsFor left visiting name = .error (Fault.of (.selfReference name)) := by
  rw [standsFor, if_pos (by simpa using visited)]

theorem standsFor_unknown (unvisited : name ∉ visiting) (unknown : left.find? name = none) :
    standsFor left visiting name = .error (Fault.of (.unknownDistribution name)) := by
  rw [standsFor, if_neg (by simpa using unvisited)]
  split
  · rfl
  · rename_i found
    cases unknown.symm.trans found

theorem standsFor_of_find? {ranges : List FileRange} (unvisited : name ∉ visiting)
    (found : left.find? name = some ranges) :
    standsFor left visiting name =
      distributionOf name (standsFor (left.erase name) (name :: visiting)) ranges := by
  rw [standsFor, if_neg (by simpa using unvisited)]
  split
  · rename_i missing
    cases missing.symm.trans found
  · rename_i others also_found
    cases also_found.symm.trans found
    rfl

/-- Induction along the names that are being built: the name is one of them, or it is not
specified, or it is and what holds below it is known. -/
@[elab_as_elim]
theorem standsFor_induction {P : KeyMap (List FileRange) → List String → String → Prop}
    (visited : ∀ left visiting name, name ∈ visiting → P left visiting name)
    (unknown : ∀ left visiting name, name ∉ visiting → left.find? name = none →
      P left visiting name)
    (known : ∀ left visiting name ranges, name ∉ visiting → left.find? name = some ranges →
      (∀ other, P (left.erase name) (name :: visiting) other) → P left visiting name)
    (left : KeyMap (List FileRange)) (visiting : List String) (name : String) :
    P left visiting name := by
  induction left, visiting, name using standsFor.induct with
  | case1 left visiting name among => exact visited _ _ _ (by simpa using among)
  | case2 left visiting name fresh missing =>
      exact unknown _ _ _ (by simpa using fresh) missing
  | case3 left visiting name fresh ranges found ih =>
      exact known _ _ _ ranges (by simpa using fresh) found ih

/-- What is remembered is what its name stands for, as long as nothing that is remembered is
being built. -/
theorem Grown.stands (grown : Grown specs built) (unbuilt : ∀ name ∈ visiting,
    built.find? name = none) (besides : Besides specs visiting left) {distribution : Distribution}
    (found : built.find? name = some distribution) :
    standsFor left visiting name = .ok distribution := by
  induction grown generalizing left visiting name distribution with
  | nil => cases found
  | @insert built latest ranges newest _ new specified made ih =>
      have unvisited : name ∉ visiting := by
        intro visited
        cases (unbuilt name visited).symm.trans found
      have earlier : ∀ other ∈ visiting, built.find? other = none := by
        intro other visited
        by_cases same : other = latest
        · rw [same, new]
        · rw [← KeyMap.find?_insert_of_ne built newest same]
          exact unbuilt other visited
      by_cases same : name = latest
      · subst same
        rw [KeyMap.find?_insert_self] at found
        cases found
        rw [standsFor_of_find? unvisited ((besides name unvisited).trans specified)]
        refine distributionOf_mono (fun other nested known => ?_) made
        refine ih (fun visited member => ?_) (besides.erase name) (remembered_ok_iff.mp known)
        rcases List.mem_cons.mp member with rfl | before
        · exact new
        · exact earlier visited before
      · rw [KeyMap.find?_insert_of_ne _ _ same] at found
        exact ih earlier besides found

/-! ## Building with what is remembered -/

/-- What was found in the first table is found in the second. -/
def Extends (first second : KeyMap Distribution) : Prop :=
  ∀ name distribution, first.find? name = some distribution →
    second.find? name = some distribution

theorem Extends.refl (built : KeyMap Distribution) : Extends built built :=
  fun _ _ found => found

theorem Extends.trans {first second third : KeyMap Distribution} (here : Extends first second)
    (there : Extends second third) : Extends first third :=
  fun name distribution found => there name distribution (here name distribution found)

theorem extends_insert (new : built.find? name = none) (distribution : Distribution) :
    Extends built (built.insert name distribution) := by
  intro other held found
  rw [KeyMap.find?_insert_of_ne _ _ (by rintro rfl; cases new.symm.trans found)]
  exact found

/-- The table has grown, and none of the visited names is in it. -/
structure Ready (specs : KeyMap (List FileRange)) (visiting : List String)
    (built : KeyMap Distribution) : Prop where
  grown : Grown specs built
  unbuilt : ∀ name ∈ visiting, built.find? name = none

section Tracks

variable {α β : Type} {nested : Nested}

/-- With a table that is ready the computation comes to what can be made of what all names stand
for, and if that succeeds it can be made of what is remembered from then on. -/
def Tracks (specs : KeyMap (List FileRange)) (visiting : List String) (nested : Nested)
    (body : Building α) (made : Nested → Except Fault α) : Prop :=
  ∀ (built after : KeyMap Distribution) (outcome : Except Fault α), Ready specs visiting built →
    body built = (outcome, after) →
    outcome = made nested ∧ Ready specs visiting after ∧ Extends built after ∧
      ∀ value, outcome = .ok value → ∀ later, Extends after later →
        made (remembered later) = .ok value

theorem tracks_ofExcept (outcome : Except Fault α) :
    Tracks specs visiting nested (rangeValue.ofExcept outcome) (fun _ => outcome) := by
  intro built after result ready run
  cases run
  exact ⟨rfl, ready, .refl built, fun _ succeeded _ _ => succeeded⟩

theorem Tracks.bind {first : Building α} {next : α → Building β} {made : Nested → Except Fault α}
    {then_made : α → Nested → Except Fault β} (here : Tracks specs visiting nested first made)
    (there : ∀ value, Tracks specs visiting nested (next value) (then_made value)) :
    Tracks specs visiting nested (first >>= next)
      (fun nested => made nested >>= fun value => then_made value nested) := by
  intro built after outcome ready run
  rw [bind_run] at run
  rcases ran : first built with ⟨fault | value, middle⟩
  · obtain ⟨comes, ready, more, _⟩ := here _ _ _ ready ran
    rw [ran] at run
    cases run
    refine ⟨?_, ready, more, fun _ succeeded => by cases succeeded⟩
    dsimp only
    rw [← comes]
    rfl
  · obtain ⟨comes, ready, more, stays⟩ := here _ _ _ ready ran
    rw [ran] at run
    obtain ⟨also_comes, ready, still_more, also_stays⟩ := there value _ _ _ ready run
    refine ⟨?_, ready, more.trans still_more, fun result succeeded later further => ?_⟩
    · dsimp only
      rw [← comes]
      exact also_comes
    · exact Except.bind_ok_iff.mpr ⟨value, stays value rfl later (still_more.trans further),
        also_stays result succeeded later further⟩

theorem Tracks.mapM {step : α → Building β} {made : α → Nested → Except Fault β}
    (each : ∀ item, Tracks specs visiting nested (step item) (made item)) :
    ∀ items : List α, Tracks specs visiting nested (items.mapM step)
      (fun nested => items.mapM (fun item => made item nested))
  | [] => by
      simp only [List.mapM_nil]
      exact tracks_ofExcept (.ok [])
  | item :: rest => by
      simp only [List.mapM_cons]
      exact (each item).bind (fun first => (Tracks.mapM each rest).bind (fun others =>
        tracks_ofExcept (.ok (first :: others))))

theorem tracks_range {build : String → Building Distribution}
    (each : ∀ other, Tracks specs visiting nested (build other) (fun nested => nested other))
    (spec : FileRange) :
    Tracks specs visiting nested (range name build spec)
      (fun nested => rangeOf name nested spec) := by
  have valued : Tracks specs visiting nested (rangeValue name build spec.value)
      (fun nested => valueOf name nested spec.value) := by
    cases spec.value with
    | list items =>
        exact (tracks_ofExcept (items.mapM (Attribute.toScalar "collection member"))).bind
          (fun members => tracks_ofExcept (.ok (RangeValue.collection members)))
    | map entries =>
        unfold rangeValue valueOf
        dsimp only
        cases (Attribute.map entries).distributionName? with
        | some other =>
            exact (each other).bind (fun distribution =>
              tracks_ofExcept (.ok (RangeValue.nested distribution)))
        | none => exact tracks_ofExcept (.error (Fault.of (.rangeValueShape name)))
    | boolean | integer | text =>
        exact (tracks_ofExcept (Attribute.toScalar "range value" _)).bind
          (fun scalar => tracks_ofExcept (.ok (RangeValue.scalar scalar)))
  refine valued.bind (fun value => ?_)
  cases made : ValueRange.of value spec.bias with
  | ok range => exact tracks_ofExcept (.ok range)
  | error fault => exact tracks_ofExcept (.error fault)

end Tracks

theorem finish_run (name : String) (ranges : List ValueRange) (built : KeyMap Distribution) :
    finish name ranges built =
      match (Distribution.build ranges).mapError
        (fun fault => fault.withNote s!"in distribution '{name}'") with
      | .ok distribution => (.ok distribution, built.insert name distribution)
      | .error fault => (.error fault, built) := by
  unfold finish
  cases Distribution.build ranges <;> rfl

/-- When a distribution is done, it is no longer among those that are being built. -/
theorem Ready.finish {ranges : List FileRange} {distribution : Distribution}
    (ready : Ready specs (name :: visiting) built) (unvisited : name ∉ visiting)
    (specified : specs.find? name = some ranges)
    (made_of : distributionOf name (remembered built) ranges = .ok distribution) :
    Ready specs visiting (built.insert name distribution) := by
  obtain ⟨new, unbuilt⟩ := List.forall_mem_cons.mp ready.unbuilt
  refine ⟨ready.grown.insert new specified made_of, fun other visited => ?_⟩
  rw [KeyMap.find?_insert_of_ne _ _ (by rintro rfl; exact unvisited visited)]
  exact unbuilt other visited

/-- A distribution whose ranges were made is remembered when it is done, and not before. -/
theorem finish_tracks {ranges : List FileRange} {nested : Nested}
    {body : Building (List ValueRange)} {after : KeyMap Distribution}
    {outcome : Except Fault Distribution}
    (ready : Ready specs visiting built) (new : built.find? name = none)
    (unvisited : name ∉ visiting) (specified : specs.find? name = some ranges)
    (walk : Tracks specs (name :: visiting) nested body
      (fun nested => ranges.mapM (rangeOf name nested)))
    (run : (body >>= finish name) built = (outcome, after)) :
    outcome = distributionOf name nested ranges ∧ Ready specs visiting after ∧
      Extends built after ∧ ∀ value, outcome = .ok value → ∀ later, Extends after later →
        remembered later name = .ok value := by
  have inside : Ready specs (name :: visiting) built :=
    ⟨ready.grown, List.forall_mem_cons.mpr ⟨new, ready.unbuilt⟩⟩
  rw [bind_run] at run
  rcases walked : body built with ⟨fault | values, middle⟩
  · obtain ⟨comes, still, more, _⟩ := walk _ _ _ inside walked
    replace comes : .error fault = ranges.mapM (rangeOf name nested) := comes
    rw [walked] at run
    cases run
    rw [distributionOf, ← comes]
    exact ⟨rfl, ⟨still.grown, (List.forall_mem_cons.mp still.unbuilt).2⟩, more,
      fun _ succeeded => by cases succeeded⟩
  · obtain ⟨comes, still, more, stays⟩ := walk _ _ _ inside walked
    replace comes : .ok values = ranges.mapM (rangeOf name nested) := comes
    obtain ⟨still_new, unbuilt⟩ := List.forall_mem_cons.mp still.unbuilt
    rw [walked] at run
    replace run : finish name values middle = (outcome, after) := run
    rw [finish_run] at run
    have made : distributionOf name nested ranges = (Distribution.build values).mapError
        (fun fault => fault.withNote s!"in distribution '{name}'") := by
      rw [distributionOf, ← comes]
      rfl
    rw [made]
    cases ended : (Distribution.build values).mapError
        (fun fault => fault.withNote s!"in distribution '{name}'") with
    | error fault =>
        rw [ended] at run
        cases run
        exact ⟨rfl, ⟨still.grown, unbuilt⟩, more, fun _ succeeded => by cases succeeded⟩
    | ok distribution =>
        rw [ended] at run
        cases run
        have made_of : distributionOf name (remembered middle) ranges = .ok distribution :=
          Except.bind_ok_iff.mpr ⟨values, stays values rfl middle (.refl middle), ended⟩
        refine ⟨rfl, still.finish unvisited specified made_of,
          more.trans (extends_insert still_new distribution),
          fun value succeeded later further => ?_⟩
        cases succeeded
        exact remembered_ok_iff.mpr
          (further name distribution (KeyMap.find?_insert_self middle name distribution))

theorem buildNamed_remembered {distribution : Distribution}
    (found : built.find? name = some distribution) :
    buildNamed left visiting name built = (.ok distribution, built) := by
  rw [buildNamed, bind_run]
  simp only [get_run, found]
  rfl

theorem buildNamed_visited (new : built.find? name = none) (visited : name ∈ visiting) :
    buildNamed left visiting name built = (.error (Fault.of (.selfReference name)), built) := by
  rw [buildNamed, bind_run]
  simp only [get_run, new, List.contains_iff_mem, visited, if_true]
  rfl

theorem buildNamed_unknown (new : built.find? name = none) (unvisited : name ∉ visiting)
    (unknown : left.find? name = none) :
    buildNamed left visiting name built =
      (.error (Fault.of (.unknownDistribution name)), built) := by
  rw [buildNamed, bind_run]
  simp only [get_run, new, List.contains_iff_mem, unvisited, if_false]
  refine congrFun (?_ : _ =
    (throw (Fault.of (.unknownDistribution name)) : Building Distribution)) built
  split
  · rfl
  · rename_i found
    cases unknown.symm.trans found

theorem buildNamed_known {ranges : List FileRange} (new : built.find? name = none)
    (unvisited : name ∉ visiting) (known : left.find? name = some ranges) :
    buildNamed left visiting name built =
      (ranges.mapM (range name (buildNamed (left.erase name) (name :: visiting))) >>=
        finish name) built := by
  rw [buildNamed, bind_run]
  simp only [get_run, new, List.contains_iff_mem, unvisited, if_false]
  refine congrFun (?_ : _ = (ranges.mapM _ >>= finish name : Building Distribution)) built
  split
  · rename_i unknown
    cases unknown.symm.trans known
  · rename_i found
    cases found.symm.trans known
    rfl

/-- **Building what may be remembered.**  With a table that has grown and holds nothing that is
being built, a distribution comes to what its name stands for, and is remembered from then on. -/
theorem buildNamed_tracks (besides : Besides specs visiting left) (name : String) :
    Tracks specs visiting (standsFor left visiting) (buildNamed left visiting name)
      (fun nested => nested name) := by
  induction left, visiting, name using buildNamed.induct with
  | case1 left visiting name ih =>
      intro built after outcome ready run
      dsimp only
      cases held : built.find? name with
      | some distribution =>
          rw [buildNamed_remembered held] at run
          cases run
          refine ⟨(ready.grown.stands ready.unbuilt besides held).symm, ready, .refl built, ?_⟩
          intro value succeeded later further
          cases succeeded
          exact remembered_ok_iff.mpr (further name distribution held)
      | none =>
          by_cases visited : name ∈ visiting
          · rw [buildNamed_visited held visited] at run
            cases run
            exact ⟨(standsFor_visited visited).symm, ready, .refl built,
              fun _ succeeded => by cases succeeded⟩
          · cases known : left.find? name with
            | none =>
                rw [buildNamed_unknown held visited known] at run
                cases run
                exact ⟨(standsFor_unknown visited known).symm, ready, .refl built,
                  fun _ succeeded => by cases succeeded⟩
            | some ranges =>
                rw [buildNamed_known held visited known] at run
                rw [standsFor_of_find? visited known]
                exact finish_tracks ready held visited ((besides name visited).symm.trans known)
                  (Tracks.mapM (fun spec => tracks_range
                    (fun other => ih ranges known other (besides.erase name)) spec) ranges) run

/-! ## Building all -/

/-- The table holds a distribution for each of the names. -/
def Holds (built : KeyMap Distribution) (names : List String) : Prop :=
  ∀ name ∈ names, ∃ distribution, built.find? name = some distribution

/-- Building distributions one after another comes to the same with every table that has grown. -/
theorem buildNames_run (names : List String) {built after : KeyMap Distribution}
    {outcome : Except Fault Unit} (grown : Grown specs built)
    (run : (names.forM (fun name => do
      let _ ← buildNamed specs [] name
      pure ()) : Building Unit) built = (outcome, after)) :
    outcome = names.forM (fun name => (standsFor specs [] name).map (fun _ => ())) ∧
      Grown specs after ∧ Extends built after ∧ (outcome = .ok () → Holds after names) := by
  induction names generalizing built with
  | nil =>
      cases run
      exact ⟨rfl, grown, .refl _, fun _ _ member => by cases member⟩
  | cons name rest ih =>
      rw [List.forM_eq_forM, List.forM_cons, bind_run, bind_run] at run
      rcases ran : buildNamed specs [] name built with ⟨fault | distribution, middle⟩
      · obtain ⟨comes, ready, more, _⟩ :=
          buildNamed_tracks (besides_nothing specs) name _ _ _ ⟨grown, by simp⟩ ran
        replace comes : .error fault = standsFor specs [] name := comes
        rw [ran] at run
        cases run
        rw [List.forM_eq_forM, List.forM_cons, ← comes]
        exact ⟨rfl, ready.grown, more, fun succeeded => by cases succeeded⟩
      · obtain ⟨comes, ready, more, stays⟩ :=
          buildNamed_tracks (besides_nothing specs) name _ _ _ ⟨grown, by simp⟩ ran
        replace comes : .ok distribution = standsFor specs [] name := comes
        rw [ran] at run
        obtain ⟨also_comes, still, still_more, holds⟩ := ih ready.grown run
        rw [List.forM_eq_forM, List.forM_cons, ← comes]
        refine ⟨also_comes, still, more.trans still_more, fun succeeded other member => ?_⟩
        rcases List.mem_cons.mp member with rfl | later
        · exact ⟨distribution, remembered_ok_iff.mp (stays distribution rfl after still_more)⟩
        · exact holds succeeded other later

/-- What is found in a table that has grown and holds all distributions. -/
theorem Grown.find?_eq (grown : Grown specs built) (holds : Holds built (specs.map Prod.fst))
    (name : String) : built.find? name = (standsFor specs [] name).toOption := by
  cases held : built.find? name with
  | some distribution =>
      rw [grown.stands (by simp) (besides_nothing specs) held]
      rfl
  | none =>
      have unspecified : specs.find? name = none := by
        cases found : specs.find? name with
        | none => rfl
        | some ranges =>
            obtain ⟨distribution, also_held⟩ := holds name
              (List.mem_map.mpr ⟨_, KeyMap.mem_of_find? found, rfl⟩)
            cases held.symm.trans also_held
      rw [standsFor_unknown (by simp) unspecified]
      rfl

/-- **Building all again.**  With any two tables that have grown, building all distributions of a
file comes to the same, and if it succeeds then the tables are the same afterwards. -/
theorem buildAll_same {first second : KeyMap Distribution} (grown : Grown specs first)
    (also_grown : Grown specs second) :
    (buildAll specs first).1 = (buildAll specs second).1 ∧
      Grown specs (buildAll specs first).2 ∧
      ((buildAll specs first).1 = .ok () →
        (buildAll specs first).2 = (buildAll specs second).2) := by
  rcases run : buildAll specs first with ⟨outcome, after⟩
  rcases also_run : buildAll specs second with ⟨other, last⟩
  obtain ⟨comes, ready, _, holds⟩ := buildNames_run _ grown run
  obtain ⟨also_comes, also_ready, _, also_holds⟩ := buildNames_run _ also_grown also_run
  have same : outcome = other := comes.trans also_comes.symm
  refine ⟨same, ready, fun succeeded => ready.sorted.ext also_ready.sorted (fun name => ?_)⟩
  rw [ready.find?_eq (holds succeeded), also_ready.find?_eq (also_holds (same ▸ succeeded))]

end TestProgram.TemplateFile
