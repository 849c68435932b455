/-
# TestProgram.Proofs.Tables -- tables in the order of their keys

A table into which pairs were put one by one has its keys in order, each of them once
(`sorted_insert`).  So it is known by what is found in it: two such tables in which the same is
found under each key are one (`Sorted.ext`), however they came about.
-/
import TestProgram.KeyMap
import Mathlib.Data.String.Basic

namespace TestProgram.KeyMap

set_option autoImplicit false

variable {α : Type} {table other : KeyMap α} {key : String}

/-- The keys stand in their order, each of them once. -/
def Sorted (table : KeyMap α) : Prop :=
  table.Pairwise (fun first second => first.1 < second.1)

theorem sorted_insert (sorted : table.Sorted) (key : String) (value : α) :
    (table.insert key value).Sorted := by
  induction table with
  | nil => exact List.pairwise_singleton _ _
  | cons pair rest ih =>
      obtain ⟨first, held⟩ := pair
      obtain ⟨above, sorted_rest⟩ := List.pairwise_cons.mp sorted
      unfold insert
      split
      · rename_i same
        subst same
        exact List.pairwise_cons.mpr ⟨above, sorted_rest⟩
      · rename_i other
        split
        · rename_i below
          refine List.pairwise_cons.mpr ⟨fun pair member => ?_, sorted⟩
          rcases List.mem_cons.mp member with rfl | later
          · exact below
          · exact below.trans (above pair later)
        · rename_i not_below
          refine List.pairwise_cons.mpr ⟨fun pair member => ?_, ih sorted_rest⟩
          rcases mem_insert member with rfl | later
          · exact lt_of_le_of_ne (not_lt.mp not_below) (Ne.symm other)
          · exact above pair later

theorem find?_erase_of_ne (table : KeyMap α) {erased : String} (differs : key ≠ erased) :
    (table.erase erased).find? key = table.find? key := by
  induction table with
  | nil => rfl
  | cons pair rest ih =>
      obtain ⟨first, held⟩ := pair
      unfold erase at ih ⊢
      by_cases same : first = erased
      · subst same
        simpa [find?, differs] using ih
      · simp [find?, same, ih]

/-- In a sorted table every pair is found under its key. -/
theorem Sorted.find?_of_mem (sorted : table.Sorted) {value : α} (member : (key, value) ∈ table) :
    table.find? key = some value := by
  induction table with
  | nil => cases member
  | cons pair rest ih =>
      obtain ⟨first, held⟩ := pair
      obtain ⟨above, sorted_rest⟩ := List.pairwise_cons.mp sorted
      rcases List.mem_cons.mp member with here | later
      · cases here
        rw [find?, if_pos rfl]
      · rw [find?, if_neg (above _ later).ne', ih sorted_rest later]

theorem Sorted.mem_iff (sorted : table.Sorted) {pair : String × α} :
    pair ∈ table ↔ table.find? pair.1 = some pair.2 :=
  ⟨sorted.find?_of_mem, mem_of_find?⟩

theorem Sorted.nodup (sorted : table.Sorted) : table.Nodup :=
  sorted.imp (fun below equal => below.ne (congrArg Prod.fst equal))

/-- A sorted table is known by what is found in it. -/
theorem Sorted.ext (sorted : table.Sorted) (also_sorted : other.Sorted)
    (same : ∀ key, table.find? key = other.find? key) : table = other := by
  have members : ∀ pair, pair ∈ table ↔ pair ∈ other := fun pair => by
    rw [sorted.mem_iff, also_sorted.mem_iff, same]
  have permuted : table.Perm other :=
    (List.perm_ext_iff_of_nodup sorted.nodup also_sorted.nodup).mpr members
  exact permuted.eq_of_pairwise (fun _ _ _ _ below above => (lt_asymm below above).elim)
    sorted also_sorted

end TestProgram.KeyMap
