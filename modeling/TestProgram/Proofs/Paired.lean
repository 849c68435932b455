/-
# TestProgram.Proofs.Paired -- lists whose items belong together one by one

`List.Forall₂` pairs two lists.  What is paired can be looked up on either side
(`exists_partner`, `at_place`), has the same image when the pairs have (`map_eq`), and can
be cut up in the same way (`exists_groups`).
-/
import Mathlib.Data.List.Forall2

namespace TestProgram.Paired

set_option autoImplicit false

variable {α β γ : Type} {R : α → β → Prop}

/-- Each item of the second list has its partner in the first. -/
theorem exists_partner {items : List α} {results : List β}
    (paired : List.Forall₂ R items results) :
    ∀ result ∈ results, ∃ item ∈ items, R item result := by
  induction paired with
  | nil => simp
  | cons here _ ih =>
      intro result member
      rcases List.mem_cons.mp member with rfl | further
      · exact ⟨_, by simp, here⟩
      · obtain ⟨item, source, related⟩ := ih result further
        exact ⟨item, by simp [source], related⟩

/-- Partners stand at the same place. -/
theorem at_place {items : List α} {results : List β} (paired : List.Forall₂ R items results) :
    ∀ {place : Nat} {result : β}, results[place]? = some result →
      ∃ item, items[place]? = some item ∧ R item result := by
  induction paired with
  | nil =>
      intro place result found
      cases found
  | cons here _ ih =>
      intro place result found
      cases place with
      | zero =>
          cases found
          exact ⟨_, rfl, here⟩
      | succ place => exact ih found

theorem map_eq {f : α → γ} {g : β → γ} {items : List α} {results : List β}
    (paired : List.Forall₂ (fun item result => g result = f item) items results) :
    results.map g = items.map f := by
  induction paired with
  | nil => rfl
  | cons here _ ih => rw [List.map_cons, List.map_cons, here, ih]

/-- Lists with the same images are paired item by item. -/
theorem of_map_eq {f : α → γ} {g : β → γ} {items : List α} {results : List β}
    (same : results.map g = items.map f) :
    List.Forall₂ (fun item result => item ∈ items ∧ result ∈ results ∧ g result = f item)
      items results := by
  induction items generalizing results with
  | nil =>
      obtain rfl := List.map_eq_nil_iff.mp same
      exact .nil
  | cons item items ih =>
      obtain ⟨result, others, rfl, here, later⟩ := List.map_eq_cons_iff.mp same
      refine .cons ⟨by simp, by simp, here⟩ ((ih later).imp ?_)
      rintro entry other ⟨member, also_member, related⟩
      exact ⟨by simp [member], by simp [also_member], related⟩

/-- Items that are paired are paired with their places. -/
theorem zipIdx {items : List α} {results : List β} (paired : List.Forall₂ R items results) :
    List.Forall₂ (fun entry other => entry.2 = other.2 ∧ items[entry.2]? = some entry.1 ∧
      results[other.2]? = some other.1 ∧ R entry.1 other.1) items.zipIdx results.zipIdx := by
  induction paired with
  | nil => exact .nil
  | cons here _ ih =>
      rw [List.zipIdx_cons', List.zipIdx_cons']
      refine .cons ⟨rfl, rfl, rfl, here⟩ ?_
      rw [List.forall₂_map_left_iff, List.forall₂_map_right_iff]
      refine ih.imp ?_
      rintro entry other ⟨same, found, also_found, related⟩
      exact ⟨by simp [same], by simpa using found, by simpa using also_found, related⟩

/-- Partners of partners are paired. -/
theorem square {δ : Type} {A : α → γ → Prop} {B : β → δ → Prop} {D : γ → δ → Prop}
    {items : List α} {results : List β} {made : List γ} {others : List δ}
    (paired : List.Forall₂ R items results) (first : List.Forall₂ A items made)
    (second : List.Forall₂ B results others)
    (each : ∀ {item result entry other}, R item result → A item entry → B result other →
      D entry other) : List.Forall₂ D made others := by
  induction paired generalizing made others with
  | nil =>
      cases first
      cases second
      exact .nil
  | cons here _ ih =>
      cases first with
      | cons first_here first_later =>
          cases second with
          | cons second_here second_later =>
              exact .cons (each here first_here second_here) (ih first_later second_later)

/-- What is paired with cut up items can be cut up in the same way. -/
theorem exists_groups {units : List (List α)} {items : List β}
    (paired : List.Forall₂ R units.flatten items) :
    ∃ groups : List (List β), items = groups.flatten ∧
      List.Forall₂ (List.Forall₂ R) units groups := by
  induction units generalizing items with
  | nil =>
      cases paired
      exact ⟨[], rfl, .nil⟩
  | cons unit rest ih =>
      rw [List.flatten_cons] at paired
      have here := (List.forall₂_take_append items unit rest.flatten paired.flip).flip
      have there := (List.forall₂_drop_append items unit rest.flatten paired.flip).flip
      obtain ⟨groups, cut, each⟩ := ih there
      refine ⟨items.take unit.length :: groups, ?_, .cons here each⟩
      rw [List.flatten_cons, ← cut, List.take_append_drop]

end TestProgram.Paired
