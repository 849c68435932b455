/-
# TestProgram.Proofs.Draw -- what a draw gives whatever the words are

`Draw.Always draw P` says that the result of a draw has the property `P` from every
random source.  It passes through the steps of a draw (`always_bind`) and along a list
(`always_mapM`), so a strategy is treated by one line for each of its steps.

Two facts about the source itself are all that the strategies rest on: a uniform number
lies in its range (`uniform_le`), and a shuffle is a permutation (`shuffle_perm`).
-/
import TestProgram.Proofs.Paired
import TestProgram.Random.Basic

namespace TestProgram.Draw

set_option autoImplicit false

variable {α β : Type}

/-- The result of the draw has the property, whatever source it is made from. -/
def Always (draw : Draw α) (P : α → Prop) : Prop :=
  ∀ random, P (draw random).1

theorem always_pure {P : α → Prop} {value : α} (holds : P value) :
    Always (pure value : Draw α) P :=
  fun _ => holds

theorem always_bind {P : α → Prop} {Q : β → Prop} {first : Draw α} {next : α → Draw β}
    (here : Always first P) (there : ∀ value, P value → Always (next value) Q) :
    Always (first >>= next) Q :=
  fun random => there _ (here random) (first random).2

theorem Always.mono {P Q : α → Prop} {draw : Draw α} (holds : Always draw P)
    (weaker : ∀ value, P value → Q value) : Always draw Q :=
  fun random => weaker _ (holds random)

theorem always_mapM {R : α → β → Prop} {draw : α → Draw β} :
    ∀ {items : List α}, (∀ item ∈ items, Always (draw item) (R item)) →
      Always (items.mapM draw) (List.Forall₂ R items)
  | [], _ => by
      rw [List.mapM_nil]
      exact always_pure .nil
  | item :: rest, each => by
      rw [List.mapM_cons]
      refine always_bind (each item (by simp)) (fun first here => ?_)
      refine always_bind (always_mapM (fun other member => each other (by simp [member]))) ?_
      exact fun others there => always_pure (.cons here there)

/-- Each result of a walk belongs to one of the items. -/
theorem always_mapM_mem {R : α → β → Prop} {draw : α → Draw β} {items : List α}
    (each : ∀ item ∈ items, Always (draw item) (R item)) :
    Always (items.mapM draw) (fun results => ∀ result ∈ results, ∃ item ∈ items, R item result) :=
  (always_mapM each).mono (fun _ paired => Paired.exists_partner paired)

/-! ## Numbers -/

theorem word_lt : Always word (· < MachineWord.short) := by
  intro random
  exact (random.words random.position).toNat_lt

theorem long_lt : Always long (· < MachineWord.long) := by
  refine always_bind word_lt (fun low low_lt => ?_)
  refine always_bind word_lt (fun high high_lt => always_pure ?_)
  simp only [MachineWord.short, MachineWord.long] at *
  omega

/-- Scaling keeps below the bound, also when patience has run out. -/
theorem scaled_lt {next : Draw Nat} {size n : Nat} (bounded : Always next (· < size))
    (positive : 0 < n) (zone : Nat) : ∀ tries, Always (scaled next size zone n tries) (· < n) := by
  have below : ∀ v, v < size → v * n / size < n := by
    intro v small
    rw [Nat.div_lt_iff_lt_mul (by omega), Nat.mul_comm n size]
    exact (Nat.mul_lt_mul_right positive).mpr small
  intro tries
  induction tries with
  | zero => exact always_bind bounded (fun v small => always_pure (below v small))
  | succ tries ih =>
      refine always_bind bounded (fun v small => ?_)
      split
      · exact always_pure (below v small)
      · exact ih

theorem uniform_le (n : Nat) : Always (uniform n) (· ≤ n) :=
  (scaled_lt long_lt (Nat.succ_pos n) _ _).mono (fun _ => Nat.le_of_lt_succ)

/-! ## Order -/

theorem swapIfInBounds_perm (items : Array α) (i j : Nat) :
    (items.swapIfInBounds i j).Perm items := by
  unfold Array.swapIfInBounds
  split
  · split
    · exact Array.swap_perm _ _
    · exact .refl items
  · exact .refl items

theorem shuffleFrom_perm (place : Nat) (items : Array α) :
    Always (shuffleFrom place items) (·.Perm items) := by
  induction place generalizing items with
  | zero => exact always_pure (.refl items)
  | succ place ih =>
      refine always_bind (P := fun _ => True) (fun _ => trivial) (fun other _ => ?_)
      exact (ih _).mono (fun shuffled same => same.trans (swapIfInBounds_perm items _ other))

theorem shuffle_perm (items : List α) : Always (shuffle items) (·.Perm items) := by
  refine always_bind (shuffleFrom_perm _ items.toArray) (fun shuffled same => always_pure ?_)
  simpa using same.toList

end TestProgram.Draw
