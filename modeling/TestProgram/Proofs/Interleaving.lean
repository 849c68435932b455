/-
# TestProgram.Proofs.Interleaving -- several lists merged into one

`Interleaving lists merged` says that `merged` is made by taking the first item of some
list again and again until all lists are used up.  So every item of every list occurs in
`merged` exactly once, nothing else does, and the items of each list keep their order.

The order of the lists does not matter (`Interleaving.perm`), and the merged list is a
permutation of all their items (`Interleaving.perm_flatten`).  The ways in which streams
are composed are all interleavings: one list after another (`flatten`), one inside the
other (`splice`), column by column (`columns`) and first items in any order
(`takeFirst_step`).
-/
import TestProgram.Strategy.Builtin

namespace TestProgram

set_option autoImplicit false

inductive Interleaving {β : Type} : List (List β) → List β → Prop
  | done {lists : List (List β)} (used : ∀ list ∈ lists, list = []) : Interleaving lists []
  | step (before after : List (List β)) {item : β} {rest merged : List β} :
      Interleaving (before ++ rest :: after) merged →
      Interleaving (before ++ (item :: rest) :: after) (item :: merged)

namespace Interleaving

variable {β : Type} {lists others : List (List β)} {list merged : List β}

theorem mem (made : Interleaving lists merged) {item : β} (member : item ∈ merged) :
    ∃ list ∈ lists, item ∈ list := by
  induction made with
  | done used => cases member
  | @step before after first rest merged made ih =>
      rcases List.mem_cons.mp member with rfl | later
      · exact ⟨item :: rest, by simp, by simp⟩
      · obtain ⟨list, source, inside⟩ := ih later
        rcases List.mem_append.mp source with left | right
        · exact ⟨list, by simp [left], inside⟩
        · rcases List.mem_cons.mp right with rfl | right
          · exact ⟨first :: list, by simp, by simp [inside]⟩
          · exact ⟨list, by simp [right], inside⟩

/-- Every item of every list occurs in the merged one, as often as it occurs in the lists. -/
theorem perm_flatten (made : Interleaving lists merged) : merged.Perm lists.flatten := by
  induction made with
  | done used =>
      have empty := List.flatten_eq_nil_iff.mpr used
      rw [empty]
  | @step before after item rest merged _ ih =>
      have taken : (item :: merged).Perm (item :: (before ++ rest :: after).flatten) :=
        ih.cons item
      refine taken.trans ?_
      simpa using List.perm_middle.symm

theorem perm (made : Interleaving lists merged) (same : lists.Perm others) :
    Interleaving others merged := by
  induction made generalizing others with
  | done used => exact .done (fun list member => used list (same.mem_iff.mpr member))
  | @step before after item rest merged made ih =>
      have member : (item :: rest) ∈ others := same.mem_iff.mp (by simp)
      obtain ⟨left, right, rfl⟩ := List.append_of_mem member
      have outer : (before ++ after).Perm (left ++ right) := by
        refine (List.perm_cons (item :: rest)).mp ?_
        exact List.perm_middle.symm.trans (same.trans List.perm_middle)
      refine .step left right (ih ?_)
      exact List.perm_middle.trans ((outer.cons rest).trans List.perm_middle.symm)

/-! ## One list more -/

theorem nil_cons (made : Interleaving lists merged) : Interleaving ([] :: lists) merged := by
  induction made with
  | done used => exact .done (by simpa using used)
  | step before after made ih => exact .step ([] :: before) after ih

/-- What a list begins with can be taken first. -/
theorem prepend (front : List β) {back : List β}
    (made : Interleaving (back :: lists) merged) :
    Interleaving ((front ++ back) :: lists) (front ++ merged) := by
  induction front with
  | nil => exact made
  | cons item front ih => exact .step [] lists ih

/-- A further list can be left to the end. -/
theorem append (made : Interleaving lists merged) (back : List β) :
    Interleaving (back :: lists) (merged ++ back) := by
  induction made with
  | @done lists used =>
      induction back with
      | nil => exact .done (by simpa using used)
      | cons item back ih => exact .step [] lists ih
  | step before after made ih => exact .step (back :: before) after ih

/-! ## Ways to interleave -/

theorem flatten : ∀ lists : List (List β), Interleaving lists lists.flatten
  | [] => .done (by simp)
  | list :: rest => by
      simpa using prepend list (nil_cons (flatten rest))

theorem splice (made : Interleaving lists merged) (outer : List β) (place : Nat) :
    Interleaving (outer :: lists) (Strategy.splice outer place merged) := by
  have split := prepend (outer.take place) (append made (outer.drop place))
  simpa [Strategy.splice, List.take_append_drop] using split

/-- The first items of all lists, and then an interleaving of what is left of them. -/
theorem heads (lists : List (List β)) : ∀ done : List (List β),
    Interleaving (done ++ lists.map List.tail) merged →
    Interleaving (done ++ lists) (lists.filterMap List.head? ++ merged) := by
  induction lists with
  | nil => exact fun done made => made
  | cons list rest ih =>
      intro done made
      have later := ih (done ++ [list.tail]) (by simpa using made)
      cases list with
      | nil => simpa [List.filterMap_cons] using later
      | cons item tail =>
          have taken : Interleaving (done ++ tail :: rest)
              (rest.filterMap List.head? ++ merged) := by
            simpa using later
          simpa using Interleaving.step done rest taken

theorem column_zero (lists : List (List β)) :
    Strategy.column lists 0 = lists.filterMap List.head? := by
  simp only [Strategy.column, ← List.head?_eq_getElem?]

theorem column_succ (lists : List (List β)) (place : Nat) :
    Strategy.column lists (place + 1) = Strategy.column (lists.map List.tail) place := by
  rw [Strategy.column, Strategy.column, List.filterMap_map]
  exact congrArg (lists.filterMap ·) (funext fun _ => List.getElem?_tail.symm)

/-- As many columns as the longest list has items use all lists up. -/
theorem columns_upTo (length : Nat) : ∀ lists : List (List β),
    (∀ list ∈ lists, list.length ≤ length) →
    Interleaving lists ((List.range length).flatMap (Strategy.column lists)) := by
  induction length with
  | zero =>
      intro lists short
      refine .done (fun list member => List.eq_nil_of_length_eq_zero ?_)
      have none_left := short list member
      omega
  | succ length ih =>
      intro lists short
      have rest := ih (lists.map List.tail) (by
        intro list member
        obtain ⟨held, source, rfl⟩ := List.mem_map.mp member
        have := short held source
        simp only [List.length_tail]
        omega)
      have all := heads lists [] (by simpa using rest)
      rw [List.range_succ_eq_map, List.flatMap_cons, List.flatMap_map, column_zero]
      simpa only [Function.comp_def, column_succ, List.nil_append, Nat.succ_eq_add_one] using all

theorem le_foldl_max (lengths : List Nat) : ∀ start : Nat,
    start ≤ lengths.foldl max start ∧ ∀ length ∈ lengths, length ≤ lengths.foldl max start := by
  induction lengths with
  | nil => simp
  | cons first rest ih =>
      intro start
      obtain ⟨above, each⟩ := ih (max start first)
      simp only [List.foldl_cons, List.forall_mem_cons]
      exact ⟨by omega, by omega, each⟩

theorem columns (lists : List (List β)) : Interleaving lists (Strategy.columns lists) := by
  refine columns_upTo _ lists (fun list member => ?_)
  exact (le_foldl_max _ 0).2 _ (List.mem_map.mpr ⟨list, member, rfl⟩)

/-- The total number of items, as the random interleaving counts it. -/
def size (lists : List (List β)) : Nat :=
  (lists.map List.length).foldr (· + ·) 0

/-- A number that falls in the stretch of a list takes its first item. -/
theorem takeFirst_at {item : β} {rest : List β} {after : List (List β)} {place : Nat}
    (inside : place ≤ rest.length) (before : List (List β)) :
    Strategy.takeFirst (size before + place) (before ++ (item :: rest) :: after) =
      some (item, before ++ rest :: after) := by
  induction before with
  | nil => simp [size, Strategy.takeFirst, inside]
  | cons list before further =>
      cases list with
      | nil => simpa [size, Strategy.takeFirst] using further
      | cons first others =>
          have passed : ¬ others.length + 1 + size before + place ≤ others.length := by omega
          have left : others.length + 1 + size before + place - (others.length + 1) =
              size before + place := by omega
          simp only [size, List.map_cons, List.length_cons, List.foldr_cons, List.cons_append] at *
          rw [Strategy.takeFirst, if_neg passed, left, further]
          rfl

/-- Every number below the count of all items falls in the stretch of some list. -/
theorem exists_stretch (lists : List (List β)) : ∀ pick, pick < size lists →
    ∃ before item rest after place, lists = before ++ (item :: rest) :: after ∧
      pick = size before + place ∧ place ≤ rest.length := by
  induction lists with
  | nil => intro pick below; simp [size] at below
  | cons list more ih =>
      intro pick below
      by_cases here : pick < list.length
      · cases list with
        | nil => simp at here
        | cons item rest =>
            exact ⟨[], item, rest, more, pick, rfl, by simp [size], Nat.le_of_lt_succ here⟩
      · have further : pick - list.length < size more := by
          simp only [size, List.map_cons, List.foldr_cons] at below ⊢
          omega
        obtain ⟨before, item, rest, after, place, rfl, falls, inside⟩ := ih _ further
        refine ⟨list :: before, item, rest, after, place, rfl, ?_, inside⟩
        simp only [size, List.map_cons, List.foldr_cons] at falls ⊢
        omega

/-- Below the number of items there is one to take: the first of some list. -/
theorem takeFirst_step (lists : List (List β)) (pick : Nat) (below : pick < size lists) :
    ∃ before item rest after, lists = before ++ (item :: rest) :: after ∧
      Strategy.takeFirst pick lists = some (item, before ++ rest :: after) := by
  obtain ⟨before, item, rest, after, place, rfl, rfl, inside⟩ := exists_stretch lists pick below
  exact ⟨before, item, rest, after, rfl, takeFirst_at inside before⟩

theorem size_append (first second : List (List β)) :
    size (first ++ second) = size first + size second := by
  induction first with
  | nil => simp [size]
  | cons list first ih =>
      simp only [size, List.cons_append, List.map_cons, List.foldr_cons] at ih ⊢
      omega

theorem size_step (before after : List (List β)) (item : β) (rest : List β) :
    size (before ++ (item :: rest) :: after) = size (before ++ rest :: after) + 1 := by
  rw [size_append, size_append]
  simp only [size, List.map_cons, List.length_cons, List.foldr_cons]
  omega

theorem of_size_zero (lists : List (List β)) (none_left : size lists = 0) :
    Interleaving lists [] := by
  induction lists with
  | nil => exact .done (by simp)
  | cons list rest ih =>
      simp only [size, List.map_cons, List.foldr_cons, Nat.add_eq_zero_iff] at none_left ih
      rw [List.eq_nil_of_length_eq_zero none_left.1]
      exact nil_cons (ih none_left.2)

end Interleaving
end TestProgram
