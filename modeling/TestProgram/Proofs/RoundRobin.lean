/-
# TestProgram.Proofs.RoundRobin -- the rotation takes one unit of each stream in turn

A rotation goes round the streams and takes the next unit of each that has one left, until a round
finds none (`rounds`).  Every other round leaves fewer units behind, so the rounds come to an
end; and what they take is what the columns of the streams hold (`columns_eq_rounds`).

In which order that is can be said of the places of the units alone, the number of a stream and
that of a unit in it: column by column, and in a column by the numbers of the streams
(`columns_places_turns`).
-/
import TestProgram.Proofs.Blindness
import TestProgram.Proofs.Strategies

namespace TestProgram.Strategy

set_option autoImplicit false

open Interleaving (size column_zero column_succ)

variable {α β : Type}

/-! ## Rounds -/

/-- The next item of every list that has one. -/
def nextItems (lists : List (List β)) : List β :=
  lists.filterMap List.head?

/-- What the lists have left when the next items are taken. -/
def afterRound (lists : List (List β)) : List (List β) :=
  lists.map List.tail

/-- A round takes as many items as there are fewer after it. -/
theorem size_eq_round (lists : List (List β)) :
    size lists = (nextItems lists).length + size (afterRound lists) := by
  induction lists with
  | nil => rfl
  | cons list rest ih =>
      cases list with
      | nil => simpa [size, nextItems, afterRound, List.filterMap_cons] using ih
      | cons item others =>
          simp only [size, nextItems, afterRound, List.map_cons, List.foldr_cons,
            List.length_cons, List.filterMap_cons, List.head?_cons, List.tail_cons] at ih ⊢
          omega

/-- Round after round, until one finds nothing to take. -/
def rounds (lists : List (List β)) : List β :=
  if (nextItems lists).isEmpty then []
  else nextItems lists ++ rounds (afterRound lists)
termination_by size lists
decreasing_by
  rename_i found
  have taken : 0 < (nextItems lists).length :=
    List.length_pos_iff.mpr (mt List.isEmpty_iff.mpr found)
  have counted := size_eq_round lists
  omega

theorem nextItems_isEmpty {lists : List (List β)} (used : ∀ list ∈ lists, list = []) :
    (nextItems lists).isEmpty = true := by
  rw [List.isEmpty_iff, nextItems, List.filterMap_eq_nil_iff]
  intro list member
  rw [used list member]
  rfl

theorem used_of_nextItems {lists : List (List β)} (none_left : (nextItems lists).isEmpty = true) :
    ∀ list ∈ lists, list = [] := by
  intro list member
  rw [List.isEmpty_iff, nextItems, List.filterMap_eq_nil_iff] at none_left
  exact List.head?_eq_none_iff.mp (none_left list member)

theorem afterRound_used {lists : List (List β)} (used : ∀ list ∈ lists, list = []) :
    ∀ list ∈ afterRound lists, list = [] := by
  intro list member
  obtain ⟨held, source, rfl⟩ := List.mem_map.mp member
  rw [used held source]
  rfl

theorem rounds_of_used {lists : List (List β)} (used : ∀ list ∈ lists, list = []) :
    rounds lists = [] := by
  rw [rounds.eq_def, if_pos (nextItems_isEmpty used)]

/-- As many columns as the longest list has items are as many rounds, and those after it find
nothing. -/
theorem columns_upTo_eq_rounds (length : Nat) : ∀ lists : List (List β),
    (∀ list ∈ lists, list.length ≤ length) →
    (List.range length).flatMap (column lists) = rounds lists := by
  induction length with
  | zero =>
      intro lists short
      have used : ∀ list ∈ lists, list = [] := fun list member =>
        List.eq_nil_of_length_eq_zero (Nat.le_zero.mp (short list member))
      rw [rounds_of_used used]
      rfl
  | succ length ih =>
      intro lists short
      have later := ih (afterRound lists) (by
        intro list member
        obtain ⟨held, source, rfl⟩ := List.mem_map.mp member
        have := short held source
        simp only [List.length_tail]
        omega)
      have first_round : (List.range (length + 1)).flatMap (column lists) =
          nextItems lists ++ rounds (afterRound lists) := by
        rw [List.range_succ_eq_map, List.flatMap_cons, List.flatMap_map, column_zero, ← later]
        simp only [Nat.succ_eq_add_one, column_succ, nextItems, afterRound]
      rw [first_round, rounds.eq_def lists]
      split
      · rename_i none_left
        have used := afterRound_used (used_of_nextItems none_left)
        rw [List.isEmpty_iff.mp none_left, rounds_of_used used]
        rfl
      · rfl

theorem columns_eq_rounds (lists : List (List β)) : columns lists = rounds lists :=
  columns_upTo_eq_rounds _ lists (fun list member =>
    (Interleaving.le_foldl_max _ 0).2 _ (List.mem_map.mpr ⟨list, member, rfl⟩))

/-! ## Places -/

/-- The item at a place, the number of a list and that of an item in it. -/
def itemAt (lists : List (List β)) (place : Nat × Nat) : Option β :=
  (lists[place.1]?).bind (fun list => list[place.2]?)

/-- The places of the items, list by list. -/
def places (lists : List (List β)) : List (List (Nat × Nat)) :=
  lists.zipIdx.map (fun entry => (List.range entry.1.length).map (fun item => (entry.2, item)))

/-- Whether a place has its turn before another: in an earlier round, or in the same round in an
earlier list. -/
def Earlier (place other : Nat × Nat) : Prop :=
  place.2 < other.2 ∨ (place.2 = other.2 ∧ place.1 < other.1)

theorem map_itemAt_places (lists : List (List β)) :
    (places lists).map (List.map (itemAt lists)) = lists.map (List.map some) := by
  apply List.ext_getElem?
  intro number
  simp only [places, List.getElem?_map, List.getElem?_zipIdx, Option.map_map]
  cases there : lists[number]? with
  | none => rfl
  | some list =>
      simp only [Option.map_some, Function.comp_apply, List.map_map, Option.some.injEq]
      apply List.ext_getElem?
      intro item
      simp only [List.getElem?_map, Function.comp_def, itemAt, Nat.zero_add, there,
        Option.bind_some]
      cases held : list[item]? with
      | none => simp [List.getElem?_eq_none_iff.mp held]
      | some found =>
          obtain ⟨inside, rfl⟩ := List.getElem?_eq_some_iff.mp held
          simp [inside]

theorem mem_places_flatten (lists : List (List β)) (place : Nat × Nat) :
    place ∈ (places lists).flatten ↔ ∃ item, itemAt lists place = some item := by
  obtain ⟨number, item⟩ := place
  simp only [places, List.mem_flatten, List.mem_map, Prod.exists, List.mem_zipIdx_iff_getElem?,
    itemAt, Option.bind_eq_some_iff]
  constructor
  · rintro ⟨_, ⟨list, source, found, rfl⟩, inside⟩
    obtain ⟨item, within, same⟩ := List.mem_map.mp inside
    cases same
    exact ⟨_, list, found, List.getElem?_eq_getElem (List.mem_range.mp within)⟩
  · rintro ⟨held, list, found, there⟩
    have within := (List.getElem?_eq_some_iff.mp there).1
    exact ⟨_, ⟨list, number, found, rfl⟩,
      List.mem_map.mpr ⟨item, List.mem_range.mpr within, rfl⟩⟩

/-- In one column the numbers of the lists go up. -/
theorem column_places (lists : List (List β)) (round : Nat) :
    (∀ place ∈ column (places lists) round, place.2 = round) ∧
      (column (places lists) round).Pairwise (fun place other => place.1 < other.1) := by
  have held : ∀ (entry : List β × Nat) (place : Nat × Nat),
      ((List.range entry.1.length).map (fun item => (entry.2, item)))[round]? = some place →
        place = (entry.2, round) := by
    intro entry place there
    rw [List.getElem?_map, Option.map_eq_some_iff] at there
    obtain ⟨item, found, rfl⟩ := there
    obtain ⟨_, rfl⟩ := List.getElem?_eq_some_iff.mp found
    simp
  have numbered : lists.zipIdx.Pairwise (fun entry other => entry.2 < other.2) := by
    have increasing : (lists.zipIdx.map Prod.snd).Pairwise (· < ·) := by
      rw [List.zipIdx_map_snd]
      exact List.pairwise_lt_range'
    exact List.pairwise_map.mp increasing
  rw [column, places, List.filterMap_map]
  constructor
  · intro place member
    obtain ⟨entry, _, there⟩ := List.mem_filterMap.mp member
    rw [held entry place there]
  · refine List.pairwise_filterMap.mpr (numbered.imp ?_)
    intro entry other less place there counterpart also_there
    rw [held entry place there, held other counterpart also_there]
    exact less

/-- Columns hold the places turn by turn. -/
theorem columns_places_turns (lists : List (List β)) :
    (columns (places lists)).Pairwise Earlier := by
  rw [columns, List.pairwise_flatMap]
  constructor
  · intro round _
    obtain ⟨same_round, increasing⟩ := column_places lists round
    refine increasing.imp_of_mem (fun member also_member less => .inr ⟨?_, less⟩)
    rw [same_round _ member, same_round _ also_member]
  · refine List.pairwise_lt_range.imp (fun {round later} less place member other there => ?_)
    refine .inl ?_
    rw [(column_places lists round).1 place member, (column_places lists later).1 other there]
    exact less

/-! ## Rotation -/

theorem itemAt_units_iff {streams : List (Stream α)} {source number : Nat} {unit : List α} :
    itemAt (streams.map Stream.units) (source, number) = some unit ↔
      ∃ stream, streams[source]? = some stream ∧ stream.units[number]? = some unit := by
  simp only [itemAt, List.getElem?_map, Option.bind_eq_some_iff, Option.map_eq_some_iff]
  constructor
  · rintro ⟨_, ⟨stream, there, rfl⟩, held⟩
    exact ⟨stream, there, held⟩
  · rintro ⟨stream, there, held⟩
    exact ⟨_, ⟨stream, there, rfl⟩, held⟩

/-- The units of some streams one after another, in this order of their places. -/
structure TakenInTurn (streams : List (Stream α)) (order : List (Nat × Nat))
    (units : List (List α)) : Prop where
  /-- One by one, the units of the places. -/
  units : List.Forall₂ (fun place unit => ∃ stream, streams[place.1]? = some stream ∧
    stream.units[place.2]? = some unit) order units
  /-- The places are those of all units. -/
  all : ∀ source unit, (source, unit) ∈ order ↔
    ∃ stream, streams[source]? = some stream ∧ unit < stream.units.length
  once : order.Nodup
  /-- A unit comes before another one if it has the smaller number in its stream, or the same
  number in an earlier stream, and only then. -/
  turns : ∀ (first second source unit other later : Nat),
    order[first]? = some (source, unit) → order[second]? = some (other, later) →
      (first < second ↔ unit < later ∨ unit = later ∧ source < other)

theorem Earlier.irrefl (place : Nat × Nat) : ¬ Earlier place place := by
  unfold Earlier
  omega

/-- What goes up in one list stands in it in this order. -/
theorem earlier_iff_of_pairwise {order : List (Nat × Nat)} (sorted : order.Pairwise Earlier)
    {first second : Nat} {place other : Nat × Nat} (there : order[first]? = some place)
    (also_there : order[second]? = some other) : first < second ↔ Earlier place other := by
  obtain ⟨inside, rfl⟩ := List.getElem?_eq_some_iff.mp there
  obtain ⟨also_inside, rfl⟩ := List.getElem?_eq_some_iff.mp also_there
  have increasing := List.pairwise_iff_getElem.mp sorted
  constructor
  · exact increasing first second inside also_inside
  · intro earlier
    rcases Nat.lt_trichotomy first second with less | rfl | greater
    · exact less
    · exact absurd earlier (Earlier.irrefl _)
    · have later := increasing second first also_inside inside greater
      unfold Earlier at earlier later
      omega

/-- The columns of the streams hold their units in turn. -/
theorem columns_takenInTurn (streams : List (Stream α)) :
    TakenInTurn streams (columns (places (streams.map Stream.units)))
      (columns (streams.map Stream.units)) where
  units := by
    have looked_up := columns_map (itemAt (streams.map Stream.units))
      (places (streams.map Stream.units))
    rw [map_itemAt_places, columns_map] at looked_up
    exact (Paired.of_map_eq looked_up).imp (fun _ _ ⟨_, _, same⟩ => itemAt_units_iff.mp same.symm)
  all := by
    intro source unit
    rw [(Interleaving.columns _).perm_flatten.mem_iff, mem_places_flatten]
    simp only [itemAt_units_iff]
    constructor
    · rintro ⟨_, stream, there, held⟩
      exact ⟨stream, there, (List.getElem?_eq_some_iff.mp held).1⟩
    · rintro ⟨stream, there, within⟩
      exact ⟨_, stream, there, List.getElem?_eq_getElem within⟩
  once := by
    refine (columns_places_turns _).imp (fun {place other} earlier same => ?_)
    subst same
    exact Earlier.irrefl place earlier
  turns := fun _ _ _ _ _ _ there also_there =>
    earlier_iff_of_pairwise (columns_places_turns _) there also_there

/-- **A rotation takes the streams in turn.**  From any streams, and without drawing anything, the
rotation takes the next unit of each stream that has one left, round after round, until a round
finds none.  So it holds every unit of every stream once, and a unit comes before another
exactly when its number in its stream is smaller, or the same in an earlier stream. -/
theorem rotation_takes_turns (streams : List (Stream α)) :
    ∃ order result, (∀ random, rotation streams random = (result, random)) ∧
      result.units = rounds (streams.map Stream.units) ∧
      TakenInTurn streams order result.units := by
  have units : (Stream.ofUnits (columns (streams.map Stream.units))).units =
      columns (streams.map Stream.units) := units_ofUnits (Interleaving.columns _)
  refine ⟨columns (places (streams.map Stream.units)),
    Stream.ofUnits (columns (streams.map Stream.units)), fun _ => rfl, ?_, ?_⟩
  · rw [units, columns_eq_rounds]
  · rw [units]
    exact columns_takenInTurn streams

example : columns [[1, 2, 3], [], [4, 5]] = [1, 4, 2, 5, 3] := by decide

end TestProgram.Strategy
