/-
# TestProgram.Proofs.Computation -- runs of computations that keep a state and may fail

Sessions, generation and data all compute in `ExceptT Fault (StateM σ)`: a run from a
state gives an outcome and the state it was reached in, whether it failed or not.  The
laws here open such a run one step at a time, so that no proof unfolds a monad.

* `bind_run`: what a run of two steps does, and `bind_ok_iff`: when it succeeds.
* `mapM_ok_iff`: a walk along a list succeeds when every step does.
* `mapM_outcome`: a walk whose steps decide their outcomes without looking at the state
  decides its own in the same way.
-/
import TestProgram.Session.Basic
import Mathlib.Data.List.Forall2

namespace TestProgram

set_option autoImplicit false

/-! ## Outcomes -/

section Outcomes

variable {α β : Type}

theorem Except.bind_ok_iff {outcome : Except Fault α} {next : α → Except Fault β} {result : β} :
    (outcome >>= next) = .ok result ↔ ∃ value, outcome = .ok value ∧ next value = .ok result := by
  cases outcome with
  | error fault => simp [bind, Except.bind]
  | ok value => simp [bind, Except.bind]

/-- A last step that cannot fail changes nothing in whether the computation does. -/
theorem Except.exists_bind_ok_iff {outcome : Except Fault α} {change : α → β} :
    (∃ result, (outcome >>= fun value => .ok (change value)) = .ok result) ↔
      ∃ value, outcome = .ok value := by
  constructor
  · rintro ⟨_, run⟩
    obtain ⟨value, here, _⟩ := Except.bind_ok_iff.mp run
    exact ⟨value, here⟩
  · rintro ⟨value, here⟩
    exact ⟨change value, Except.bind_ok_iff.mpr ⟨value, here, rfl⟩⟩

theorem Except.bind_ok_error_iff {outcome : Except Fault α} {change : α → β} {fault : Fault} :
    (outcome >>= fun value => .ok (change value)) = .error fault ↔ outcome = .error fault := by
  cases outcome with
  | error cause => simp [bind, Except.bind]
  | ok value => simp [bind, Except.bind]

theorem Except.mapError_ok_iff {change : Fault → Fault} {outcome : Except Fault α} {value : α} :
    outcome.mapError change = .ok value ↔ outcome = .ok value := by
  cases outcome <;> simp [Except.mapError]

theorem Except.mapError_error_iff {change : Fault → Fault} {outcome : Except Fault α}
    {fault : Fault} :
    outcome.mapError change = .error fault ↔
      ∃ cause, outcome = .error cause ∧ change cause = fault := by
  cases outcome <;> simp [Except.mapError]

theorem Except.mapM_ok_iff {step : α → Except Fault β} {items : List α} {results : List β} :
    items.mapM step = .ok results ↔
      List.Forall₂ (fun item result => step item = .ok result) items results := by
  induction items generalizing results with
  | nil => cases results <;> simp [pure, Except.pure]
  | cons item rest ih =>
      rw [List.mapM_cons, Except.bind_ok_iff]
      constructor
      · rintro ⟨first, here, later⟩
        obtain ⟨others, there, made⟩ := Except.bind_ok_iff.mp later
        cases made
        exact .cons here (ih.mp there)
      · intro pairs
        cases pairs with
        | cons here there => exact ⟨_, here, Except.bind_ok_iff.mpr ⟨_, ih.mpr there, rfl⟩⟩

/-- A walk succeeds exactly when each of its steps does. -/
theorem Except.exists_mapM_ok_iff {step : α → Except Fault β} {items : List α} :
    (∃ results, items.mapM step = .ok results) ↔
      ∀ item ∈ items, ∃ result, step item = .ok result := by
  induction items with
  | nil => simp [pure, Except.pure]
  | cons item rest ih =>
      simp only [List.forall_mem_cons, ← ih, Except.mapM_ok_iff]
      constructor
      · rintro ⟨_, pairs⟩
        cases pairs with
        | cons here there => exact ⟨⟨_, here⟩, ⟨_, there⟩⟩
      · rintro ⟨⟨_, here⟩, ⟨_, there⟩⟩
        exact ⟨_, .cons here there⟩

/-- A walk that fails has failed in one of its steps. -/
theorem Except.mapM_error {step : α → Except Fault β} {items : List α} {fault : Fault}
    (failed : items.mapM step = .error fault) : ∃ item ∈ items, step item = .error fault := by
  induction items with
  | nil => cases failed
  | cons item rest ih =>
      rw [List.mapM_cons] at failed
      cases here : step item with
      | error cause =>
          rw [here] at failed
          cases failed
          exact ⟨item, by simp, here⟩
      | ok first =>
          rw [here] at failed
          cases there : rest.mapM step with
          | error cause =>
              have same : cause = fault := by simpa [there, bind, Except.bind] using failed
              obtain ⟨place, member, at_place⟩ := ih (same ▸ there)
              exact ⟨place, by simp [member], at_place⟩
          | ok others => simp [there, bind, Except.bind, pure, Except.pure] at failed

end Outcomes

/-! ## Runs -/

namespace Computation

variable {σ α β : Type}

theorem bind_run (first : ExceptT Fault (StateM σ) α) (next : α → ExceptT Fault (StateM σ) β)
    (state : σ) :
    (first >>= next) state =
      match first state with
      | (.ok value, after) => next value after
      | (.error fault, after) => (.error fault, after) := by
  change (ExceptT.bindCont next (first state).1 : StateM σ (Except Fault β)) (first state).2 = _
  rcases first state with ⟨_ | _, _⟩ <;> rfl

theorem get_run (state : σ) : (get : ExceptT Fault (StateM σ) σ) state = (.ok state, state) := rfl

theorem bind_ok_iff {first : ExceptT Fault (StateM σ) α} {next : α → ExceptT Fault (StateM σ) β}
    {state last : σ} {result : β} :
    (first >>= next) state = (.ok result, last) ↔
      ∃ value after, first state = (.ok value, after) ∧ next value after = (.ok result, last) := by
  rw [bind_run]
  rcases first state with ⟨_ | value, after⟩
  · constructor
    · intro failed
      cases failed
    · rintro ⟨_, _, here, _⟩
      cases here
  · constructor
    · intro later
      exact ⟨value, after, rfl, later⟩
    · rintro ⟨_, _, here, later⟩
      cases here
      exact later

/-- A run of two steps fails in the first one or in the second. -/
theorem bind_error_iff {first : ExceptT Fault (StateM σ) α}
    {next : α → ExceptT Fault (StateM σ) β} {state last : σ} {fault : Fault} :
    (first >>= next) state = (.error fault, last) ↔
      first state = (.error fault, last) ∨
        ∃ value after, first state = (.ok value, after) ∧
          next value after = (.error fault, last) := by
  rw [bind_run]
  rcases first state with ⟨_ | value, after⟩
  · constructor
    · intro failed
      cases failed
      exact .inl rfl
    · rintro (here | ⟨_, _, here, _⟩)
      · cases here
        rfl
      · cases here
  · constructor
    · intro later
      exact .inr ⟨value, after, rfl, later⟩
    · rintro (here | ⟨_, _, here, later⟩)
      · cases here
      · cases here
        exact later

/-- Two steps whose outcomes do not depend on the state come to the two outcomes. -/
theorem bind_outcome {first : ExceptT Fault (StateM σ) α}
    {next : α → ExceptT Fault (StateM σ) β} {outcome : Except Fault α}
    {later : α → Except Fault β} {state : σ} (here : (first state).1 = outcome)
    (there : ∀ value after, (next value after).1 = later value) :
    ((first >>= next) state).1 = outcome >>= later := by
  rw [bind_run]
  subst here
  rcases first state with ⟨_ | value, after⟩
  · rfl
  · exact there value after

/-- Each result of a walk that succeeds is that of one step. -/
theorem mapM_ok {step : α → ExceptT Fault (StateM σ) β} {items : List α} {results : List β}
    {state last : σ} (run : items.mapM step state = (.ok results, last)) :
    List.Forall₂ (fun item result => ∃ before after, step item before = (.ok result, after))
      items results := by
  induction items generalizing results state with
  | nil =>
      rw [List.mapM_nil] at run
      cases run
      exact .nil
  | cons item rest ih =>
      rw [List.mapM_cons] at run
      obtain ⟨first, middle, here, run⟩ := bind_ok_iff.mp run
      obtain ⟨others, final, there, run⟩ := bind_ok_iff.mp run
      cases run
      exact .cons ⟨state, middle, here⟩ (ih there)

/-- A walk that fails has failed in one of its steps. -/
theorem mapM_error {step : α → ExceptT Fault (StateM σ) β} {items : List α} {fault : Fault}
    {state last : σ} (run : items.mapM step state = (.error fault, last)) :
    ∃ item ∈ items, ∃ before, step item before = (.error fault, last) := by
  induction items generalizing state with
  | nil =>
      rw [List.mapM_nil] at run
      cases run
  | cons item rest ih =>
      rw [List.mapM_cons] at run
      rcases bind_error_iff.mp run with here | ⟨first, middle, _, later⟩
      · exact ⟨item, List.mem_cons_self, state, here⟩
      · rcases bind_error_iff.mp later with there | ⟨others, final, _, ended⟩
        · obtain ⟨other, member, failed⟩ := ih there
          exact ⟨other, List.mem_cons_of_mem item member, failed⟩
        · cases ended

/-- A walk whose steps cannot fail cannot fail. -/
theorem forM_ok {step : α → ExceptT Fault (StateM σ) Unit}
    (succeeds : ∀ item state, (step item state).1 = .ok ()) (items : List α) (state : σ) :
    (items.forM step state).1 = .ok () := by
  induction items generalizing state with
  | nil => rfl
  | cons item rest ih =>
      have here := succeeds item state
      rw [List.forM_eq_forM, List.forM_cons, bind_run]
      rcases ran : step item state with ⟨_ | _, middle⟩
      · rw [ran] at here
        cases here
      · exact ih middle

theorem mapM_outcome {step : α → ExceptT Fault (StateM σ) β} {outcome : α → Except Fault β}
    (settled : ∀ item state, (step item state).1 = outcome item) :
    ∀ (items : List α) (state : σ), (items.mapM step state).1 = items.mapM outcome
  | [], state => by simp only [List.mapM_nil]; rfl
  | item :: rest, state => by
      rw [List.mapM_cons, List.mapM_cons]
      exact bind_outcome (settled item state) (fun first after =>
        bind_outcome (mapM_outcome settled rest after) (fun _ _ => rfl))

end Computation
end TestProgram
