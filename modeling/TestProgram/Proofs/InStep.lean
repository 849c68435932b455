/-
# TestProgram.Proofs.InStep -- two computations side by side

`InStep S V here there` says that from states which belong together (`S`) the two
computations come to states which do, and to the same fault or to values which belong
together (`V`).  There is one rule for each way of putting computations together, so that two
bodies are compared statement by statement, and no run is ever opened.

Generation, the desk and the session each have a relation of their own; that of generation is
here, since the others rest on it: two engines are alike when they draw the same, whatever
their journals say.
-/
import TestProgram.Proofs.Blindness
import TestProgram.Proofs.Computation

namespace TestProgram

set_option autoImplicit false

open Strategy (Agree)

/-- Values of which nothing is asked. -/
def Whatever {α β : Type} (_ : α) (_ : β) : Prop := True

theorem Agree.mono {α β : Type} {V W : α → β → Prop} {here : Except Fault α}
    {there : Except Fault β} (agree : Agree V here there)
    (weaker : ∀ value other, V value other → W value other) : Agree W here there := by
  cases agree with
  | ok related => exact .ok (weaker _ _ related)
  | error fault => exact .error fault

theorem Agree.refl {α : Type} (outcome : Except Fault α) : Agree Eq outcome outcome := by
  cases outcome with
  | ok value => exact .ok rfl
  | error fault => exact .error fault

/-- An outcome agrees with itself, and its value is the one it has. -/
theorem Agree.known {α : Type} (outcome : Except Fault α) :
    Agree (fun value other => value = other ∧ outcome = .ok value) outcome outcome := by
  cases outcome with
  | ok value => exact .ok ⟨rfl, rfl⟩
  | error fault => exact .error fault

theorem Agree.mapError {α β : Type} {V : α → β → Prop} {here : Except Fault α}
    {there : Except Fault β} (agree : Agree V here there) (change : Fault → Fault) :
    Agree V (here.mapError change) (there.mapError change) := by
  cases agree with
  | ok related => exact .ok related
  | error fault => exact .error (change fault)

theorem Agree.of_ok {α β : Type} {V : α → β → Prop} {value : α} {there : Except Fault β}
    (agree : Agree V (.ok value) there) : ∃ other, there = .ok other ∧ V value other := by
  generalize found : Except.ok value = here at agree
  cases agree with
  | ok related =>
      cases found
      exact ⟨_, rfl, related⟩
  | error fault => cases found

theorem Agree.of_error {α β : Type} {V : α → β → Prop} {fault : Fault} {there : Except Fault β}
    (agree : Agree V (.error fault) there) : there = .error fault := by
  generalize found : Except.error fault = here at agree
  cases agree with
  | ok related => cases found
  | error fault =>
      cases found
      rfl

theorem Agree.exists_ok {α β : Type} {V : α → β → Prop} {here : Except Fault α} {value : β}
    (agree : Agree V here (.ok value)) : ∃ other, here = .ok other := by
  generalize found : Except.ok value = there at agree
  cases agree with
  | ok related => exact ⟨_, rfl⟩
  | error fault => cases found

/-- The outcome of a computation whose value does not matter. -/
theorem Agree.unit {α β : Type} {V : α → β → Prop} {here : Except Fault α}
    {there : Except Fault β} (agree : Agree V here there) :
    Agree Eq (here.map (fun _ => ())) (there.map (fun _ => ())) := by
  cases agree with
  | ok related => exact .ok rfl
  | error fault => exact .error fault

namespace Computation

section Rules

variable {σ α β γ δ : Type} {S : σ → σ → Prop} {V : α → β → Prop} {W : γ → δ → Prop}

/-- From states that belong together the two computations come to such states, and to values
that belong together or to the same fault. -/
def InStep (S : σ → σ → Prop) (V : α → β → Prop) (here : ExceptT Fault (StateM σ) α)
    (there : ExceptT Fault (StateM σ) β) : Prop :=
  ∀ first second, S first second →
    Agree V (here first).1 (there second).1 ∧ S (here first).2 (there second).2

variable {here : ExceptT Fault (StateM σ) α} {there : ExceptT Fault (StateM σ) β}

theorem InStep.mono {U : α → β → Prop} (together : InStep S V here there)
    (weaker : ∀ value other, V value other → U value other) : InStep S U here there :=
  fun first second alike =>
    ⟨Agree.mono (together first second alike).1 weaker, (together first second alike).2⟩

theorem InStep.whatever (together : InStep S V here there) : InStep S Whatever here there :=
  together.mono (fun _ _ _ => trivial)

theorem inStep_pure {value : α} {other : β} (related : V value other) :
    InStep S V (pure value) (pure other) :=
  fun _ _ alike => ⟨.ok related, alike⟩

theorem inStep_throw (fault : Fault) :
    InStep S V (throw fault : ExceptT Fault (StateM σ) α) (throw fault) :=
  fun _ _ alike => ⟨.error fault, alike⟩

theorem InStep.bind {next : α → ExceptT Fault (StateM σ) γ}
    {further : β → ExceptT Fault (StateM σ) δ}
    (together : InStep S V here there)
    (later : ∀ value other, V value other → InStep S W (next value) (further other)) :
    InStep S W (here >>= next) (there >>= further) := by
  intro first second alike
  obtain ⟨agree, alike⟩ := together first second alike
  rw [bind_run, bind_run]
  revert agree alike
  rcases here first with ⟨outcome, after⟩
  rcases there second with ⟨other, last⟩
  rintro (⟨related⟩ | ⟨fault⟩) alike
  · exact later _ _ related after last alike
  · exact ⟨.error fault, alike⟩

theorem inStep_get : InStep S S (get : ExceptT Fault (StateM σ) σ) get :=
  fun _ _ alike => ⟨.ok alike, alike⟩

theorem inStep_modify {change other : σ → σ} (kept : ∀ first second, S first second →
    S (change first) (other second)) :
    InStep S Eq (modify change : ExceptT Fault (StateM σ) Unit) (modify other) :=
  fun first second alike => ⟨.ok rfl, kept first second alike⟩

/-- What is known of the first value is known of it side by side. -/
theorem InStep.knowing {P : α → Prop} (together : InStep S V here there)
    (always : ∀ state value after, here state = (.ok value, after) → P value) :
    InStep S (fun value other => V value other ∧ P value) here there := by
  intro first second alike
  obtain ⟨agree, alike⟩ := together first second alike
  refine ⟨?_, alike⟩
  have known := always first
  revert agree known
  rcases here first with ⟨outcome, after⟩
  rcases there second with ⟨other, last⟩
  rintro (⟨related⟩ | ⟨fault⟩) known
  · exact .ok ⟨related, known _ _ rfl⟩
  · exact .error fault

/-- What only the first of two computations does, and nobody sees. -/
theorem InStep.before {step : ExceptT Fault (StateM σ) Unit}
    (unseen : InStep S Eq step (pure ())) {next : ExceptT Fault (StateM σ) γ}
    {further : ExceptT Fault (StateM σ) δ} (together : InStep S W next further) :
    InStep S W (step >>= fun _ => next) further := by
  have both : InStep S W (step >>= fun _ => next) (pure () >>= fun _ => further) :=
    unseen.bind (fun _ _ _ => together)
  rwa [pure_bind] at both

theorem inStep_mapM {ι κ : Type} {P : ι → κ → Prop} {R : γ → δ → Prop}
    {step : ι → ExceptT Fault (StateM σ) γ} {other : κ → ExceptT Fault (StateM σ) δ}
    {items : List ι} {others : List κ} (paired : List.Forall₂ P items others)
    (each : ∀ item counterpart, P item counterpart →
      InStep S R (step item) (other counterpart)) :
    InStep S (List.Forall₂ R) (items.mapM step) (others.mapM other) := by
  induction paired with
  | nil =>
      rw [List.mapM_nil, List.mapM_nil]
      exact inStep_pure .nil
  | cons here _ ih =>
      rw [List.mapM_cons, List.mapM_cons]
      refine (each _ _ here).bind (fun _ _ related => ih.bind (fun _ _ later => ?_))
      exact inStep_pure (.cons related later)

/-- A walk along one list on both sides. -/
theorem inStep_mapM_same {ι : Type} {step : ι → ExceptT Fault (StateM σ) γ} (items : List ι)
    (each : ∀ item ∈ items, InStep S Eq (step item) (step item)) :
    InStep S Eq (items.mapM step) (items.mapM step) := by
  have paired : List.Forall₂ (fun first second => first = second ∧ first ∈ items) items items :=
    List.forall₂_same.mpr (fun item member => ⟨rfl, member⟩)
  refine (inStep_mapM (R := Eq) paired ?_).mono (fun _ _ same => ?_)
  · rintro item _ ⟨rfl, member⟩
    exact each item member
  · exact List.forall₂_eq_eq_eq ▸ same

theorem inStep_forM {ι : Type} {step : ι → ExceptT Fault (StateM σ) Unit} (items : List ι)
    (each : ∀ item ∈ items, InStep S Eq (step item) (step item)) :
    InStep S Eq (items.forM step) (items.forM step) := by
  induction items with
  | nil => exact inStep_pure rfl
  | cons item rest ih =>
      rw [List.forM_eq_forM, List.forM_cons]
      refine (each item (by simp)).bind (fun _ _ _ => ?_)
      exact ih (fun other member => each other (by simp [member]))

end Rules

end Computation

/-! ## Generation -/

/-- Two engines that draw the same. -/
def Engine.Alike (here there : Engine) : Prop :=
  here.random = there.random

namespace Generation

open TestProgram.Computation

variable {α β : Type} {V : α → β → Prop}

theorem remark_inStep (remarked other : Remark) :
    InStep Engine.Alike Eq (remark remarked) (remark other) :=
  inStep_modify (fun _ _ alike => alike)

theorem ofExcept_inStep {here : Except Fault α} {there : Except Fault β}
    (agree : Agree V here there) :
    InStep Engine.Alike V (ofExcept here) (ofExcept there) :=
  fun _ _ alike => ⟨agree, alike⟩

theorem draw_inStep {here : Draw α} {there : Draw β}
    (together : ∀ random, V (here random).1 (there random).1 ∧ (here random).2 = (there random).2) :
    InStep Engine.Alike V (draw here) (draw there) := by
  intro first second alike
  obtain ⟨related, same⟩ := together first.random
  unfold draw
  rw [← show first.random = second.random from alike]
  exact ⟨.ok related, same⟩

theorem sample_inStep (sampler : Distribution.Sampler α) :
    InStep Engine.Alike Eq (sample sampler) (sample sampler) := by
  intro first second alike
  unfold sample
  rw [← show first.random = second.random from alike]
  exact ⟨Agree.refl _, rfl⟩

theorem locating_inStep {here : Generation α} {there : Generation β}
    (location : Option Location) (together : InStep Engine.Alike V here there) :
    InStep Engine.Alike V (locating location here) (locating location there) :=
  fun first second alike =>
    ⟨Agree.mapError (together first second alike).1 _, (together first second alike).2⟩

end Generation
end TestProgram
