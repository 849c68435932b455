/-
# TestProgram.Proofs.UniformMerges -- the random compositor favours no interleaving

The random compositor draws one number for each unit, below the count of units that are left, and
the numbers alone decide how the streams are merged (`interleave_drawn`).  There are as many
sequences of such numbers as permutations of the units (`length_drawSequences`).

A number takes the unit of the stream in whose stretch it falls, when the units that are left of
all streams stand one after another (`takeFirst_at`).  So of the numbers for the first unit
as many lead to a stream as it has units, and by induction every order of the streams' numbers in
which each occurs as often as it has units comes of the same count of sequences: the product of
the factorials of the streams' lengths (`count_drawSequences`).
-/
import TestProgram.Proofs.Blindness
import TestProgram.Proofs.Strategies
import Mathlib.Data.Nat.Factorial.Basic
import Mathlib.Data.Set.Card

namespace TestProgram.Strategy

set_option autoImplicit false

open Interleaving (size size_append takeFirst_at exists_stretch)
open scoped Nat

variable {α β : Type}

/-! ## Numbers drawn and what they make -/

/-- The items of the lists in the order in which numbers take them. -/
def merged : List Nat → List (List β) → List β
  | [], _ => []
  | pick :: picks, lists =>
      match takeFirst pick lists with
      | none => merged picks lists
      | some (item, lists) => item :: merged picks lists

/-- One number for each of so many items, below the count of items that are left. -/
def drawPicks : Nat → Draw (List Nat)
  | 0 => pure []
  | left + 1 => do
      let pick ← Draw.uniform left
      let picks ← drawPicks left
      pure (pick :: picks)

/-- Numbers as they are drawn for so many items. -/
def DrawnFor (count : Nat) (picks : List Nat) : Prop :=
  picks.length = count ∧ ∀ place pick, picks[place]? = some pick → pick < count - place

/-- All such sequences of numbers. -/
def drawSequences : Nat → List (List Nat)
  | 0 => [[]]
  | left + 1 => (List.range (left + 1)).flatMap (fun pick =>
      (drawSequences left).map (pick :: ·))

/-- Interleaving draws the numbers and merges by them. -/
theorem interleave_drawn (left : Nat) : ∀ lists : List (List β),
    interleave left lists = (do
      let picks ← drawPicks left
      pure (merged picks lists)) := by
  induction left with
  | zero => intro lists; rfl
  | succ left ih =>
      intro lists
      simp only [interleave, drawPicks, bind_assoc, pure_bind, merged]
      congr 1
      funext pick
      cases takeFirst pick lists with
      | none => exact ih lists
      | some taken => simp [ih]

theorem drawnFor_nil (picks : List Nat) : DrawnFor 0 picks ↔ picks = [] := by
  constructor
  · rintro ⟨none_left, _⟩
    exact List.eq_nil_of_length_eq_zero none_left
  · rintro rfl
    exact ⟨rfl, by simp⟩

theorem drawnFor_cons {left pick : Nat} {picks : List Nat} :
    DrawnFor (left + 1) (pick :: picks) ↔ pick < left + 1 ∧ DrawnFor left picks := by
  constructor
  · rintro ⟨counted, below⟩
    refine ⟨below 0 pick rfl, by simpa using counted, fun place other there => ?_⟩
    have := below (place + 1) other (by simpa using there)
    omega
  · rintro ⟨first, counted, below⟩
    refine ⟨by simp [counted], fun place other there => ?_⟩
    cases place with
    | zero =>
        cases there
        exact first
    | succ place =>
        have := below place other (by simpa using there)
        omega

theorem drawPicks_drawnFor (count : Nat) : Draw.Always (drawPicks count) (DrawnFor count) := by
  induction count with
  | zero => exact Draw.always_pure ((drawnFor_nil []).mpr rfl)
  | succ left ih =>
      refine Draw.always_bind (Draw.uniform_le left) (fun pick inside => ?_)
      refine Draw.always_bind ih (fun picks drawn => Draw.always_pure ?_)
      exact drawnFor_cons.mpr ⟨by omega, drawn⟩

theorem mem_drawSequences (count : Nat) : ∀ picks,
    picks ∈ drawSequences count ↔ DrawnFor count picks := by
  induction count with
  | zero => intro picks; simp [drawSequences, drawnFor_nil]
  | succ left ih =>
      intro picks
      simp only [drawSequences, List.mem_flatMap, List.mem_range, List.mem_map, ih]
      cases picks with
      | nil => simp [DrawnFor]
      | cons first rest =>
          rw [drawnFor_cons]
          constructor
          · rintro ⟨pick, below, picks, drawn, same⟩
            cases same
            exact ⟨below, drawn⟩
          · rintro ⟨below, drawn⟩
            exact ⟨first, below, rest, drawn, rfl⟩

theorem nodup_drawSequences (count : Nat) : (drawSequences count).Nodup := by
  induction count with
  | zero => simp [drawSequences]
  | succ left ih =>
      rw [drawSequences, List.nodup_flatMap]
      refine ⟨fun pick _ => ih.map (List.cons_injective), ?_⟩
      refine List.nodup_range.imp (fun {first second} differ => ?_)
      simp only [Function.onFun, List.disjoint_left, List.mem_map]
      rintro _ ⟨picks, _, rfl⟩ ⟨others, _, same⟩
      cases same
      exact differ rfl

/-- There is one sequence of numbers for each permutation of the items. -/
theorem length_drawSequences (count : Nat) : (drawSequences count).length = count ! := by
  induction count with
  | zero => rfl
  | succ left ih => simp [drawSequences, List.length_flatMap, ih, Nat.factorial_succ]

/-- Sets of sequences are counted along the list of all. -/
theorem ncard_drawnFor (count : Nat) (P : List Nat → Prop) [DecidablePred P] :
    {picks | DrawnFor count picks ∧ P picks}.ncard = (drawSequences count).countP P := by
  have listed : {picks | DrawnFor count picks ∧ P picks} =
      ((drawSequences count).filter P).toFinset := by
    ext picks
    simp [mem_drawSequences]
  have each_once := (nodup_drawSequences count).filter (fun picks => decide (P picks))
  rw [listed, Set.ncard_coe_finset, List.toFinset_card_of_nodup each_once,
    List.countP_eq_length_filter]

/-! ## Items that know their lists -/

/-- The lists with the number of its list beside each item. -/
def numbered (lists : List (List β)) : List (List (Nat × β)) :=
  lists.zipIdx.map (fun entry => entry.1.map (fun item => (entry.2, item)))

/-- Each item stands in the list whose number is beside it. -/
def Numbered (lists : List (List (Nat × β))) : Prop :=
  ∀ (source : Nat) (list : List (Nat × β)), lists[source]? = some list →
    ∀ entry ∈ list, entry.1 = source

theorem numbered_numbered (lists : List (List β)) : Numbered (numbered lists) := by
  intro source list there entry member
  simp only [numbered, List.getElem?_map, List.getElem?_zipIdx, Option.map_map,
    Option.map_eq_some_iff] at there
  obtain ⟨items, _, rfl⟩ := there
  obtain ⟨item, _, rfl⟩ := List.mem_map.mp member
  simp

theorem map_snd_numbered (lists : List (List β)) :
    (numbered lists).map (List.map Prod.snd) = lists := by
  simp [numbered, Function.comp_def]

theorem getD_numbered (lists : List (List β)) (source : Nat) :
    ((numbered lists).getD source []).map Prod.snd = lists.getD source [] := by
  simp only [List.getD_eq_getElem?_getD, numbered, List.getElem?_map, List.getElem?_zipIdx]
  cases lists[source]? <;> simp [Function.comp_def]

/-- One of the lists, seen among them. -/
theorem getD_split (before : List (List β)) (list : List β) (after : List (List β))
    (source : Nat) : (before ++ list :: after).getD source [] =
      if source = before.length then list else (before ++ [] :: after).getD source [] := by
  simp only [List.getD_eq_getElem?_getD]
  by_cases here : source = before.length
  · simp [here]
  · rw [if_neg here]
    rcases Nat.lt_or_gt_of_ne here with earlier | later
    · simp [List.getElem?_append_left earlier]
    · have past : source - before.length ≠ 0 := by omega
      simp [List.getElem?_append_right (Nat.le_of_lt later), List.getElem?_cons, past]

section Steps

variable {before after : List (List (Nat × β))} {item : Nat × β} {rest : List (Nat × β)}

theorem Numbered.first (known : Numbered (before ++ (item :: rest) :: after)) :
    item.1 = before.length :=
  known before.length (item :: rest) (by simp) item List.mem_cons_self

theorem Numbered.step (known : Numbered (before ++ (item :: rest) :: after)) :
    Numbered (before ++ rest :: after) := by
  intro source list there entry member
  by_cases here : source = before.length
  · subst here
    have same : rest = list := by simpa using there
    exact known before.length (item :: rest) (by simp) entry (by simp [same, member])
  · refine known source list ?_ entry member
    rcases Nat.lt_or_gt_of_ne here with earlier | later
    · simpa [List.getElem?_append_left earlier] using there
    · have past : source - before.length ≠ 0 := by omega
      simpa [List.getElem?_append_right (Nat.le_of_lt later), List.getElem?_cons, past] using there

end Steps

/-- In an interleaving the items of each list are that list. -/
theorem Numbered.filter_interleaving {lists : List (List (Nat × β))} {made : List (Nat × β)}
    (interleaved : Interleaving lists made) (known : Numbered lists) (source : Nat) :
    made.filter (fun entry => entry.1 = source) = lists.getD source [] := by
  induction interleaved with
  | @done lists used =>
      rw [List.getD_eq_getElem?_getD]
      cases there : lists[source]? with
      | none => rfl
      | some list => simp [used list (List.mem_of_getElem? there)]
  | @step before after item rest merged made ih =>
      have later := ih known.step
      rw [getD_split] at later ⊢
      rw [List.filter_cons, later, known.first]
      by_cases here : source = before.length
      · simp [here]
      · simp [here, Ne.symm here]

/-- Drawn numbers make an interleaving. -/
theorem merged_interleaves (count : Nat) : ∀ (picks : List Nat) (lists : List (List β)),
    size lists = count → DrawnFor count picks → Interleaving lists (merged picks lists) := by
  induction count with
  | zero =>
      intro picks lists counted drawn
      obtain rfl := (drawnFor_nil picks).mp drawn
      exact Interleaving.of_size_zero lists counted
  | succ left ih =>
      intro picks lists counted drawn
      cases picks with
      | nil => simp [DrawnFor] at drawn
      | cons pick picks =>
          obtain ⟨below, drawn⟩ := drawnFor_cons.mp drawn
          obtain ⟨before, item, rest, after, rfl, taken⟩ :=
            Interleaving.takeFirst_step lists pick (by omega)
          rw [Interleaving.size_step] at counted
          rw [merged, taken]
          exact .step before after (ih picks _ (by omega) drawn)

theorem merged_map (g : α → β) : ∀ (picks : List Nat) (lists : List (List α)),
    merged picks (lists.map (List.map g)) = (merged picks lists).map g
  | [], _ => rfl
  | pick :: picks, lists => by
      rw [merged, merged, takeFirst_map]
      cases takeFirst pick lists with
      | none => exact merged_map g picks lists
      | some taken => simp [Taken.map, merged_map g picks]

/-! ## Counting -/

/-- A sum that has one value along a stretch and none outside it. -/
theorem sum_stretch (F : Nat → Nat) {front width back value : Nat}
    (here : ∀ place < width, F (front + place) = value)
    (elsewhere : ∀ pick < front + width + back, pick < front ∨ front + width ≤ pick → F pick = 0) :
    ((List.range (front + width + back)).map F).sum = width * value := by
  have first : ((List.range front).map F).sum = 0 := by
    refine List.sum_eq_zero (fun number member => ?_)
    obtain ⟨pick, below, rfl⟩ := List.mem_map.mp member
    have := List.mem_range.mp below
    exact elsewhere pick (by omega) (by omega)
  have last : ((List.range back).map (fun place => F (front + width + place))).sum = 0 := by
    refine List.sum_eq_zero (fun number member => ?_)
    obtain ⟨place, below, rfl⟩ := List.mem_map.mp member
    have := List.mem_range.mp below
    exact elsewhere _ (by omega) (by omega)
  have between : (List.range width).map (fun place => F (front + place)) =
      List.replicate width value := by
    rw [List.eq_replicate_iff]
    refine ⟨by simp, fun number member => ?_⟩
    obtain ⟨place, below, rfl⟩ := List.mem_map.mp member
    exact here place (List.mem_range.mp below)
  rw [List.range_add, List.range_add, List.map_append, List.map_append, List.map_map, List.map_map,
    List.sum_append, List.sum_append]
  simp only [Function.comp_def]
  rw [first, last, between]
  simp

/-- The product of the factorials of the lengths. -/
def arrangements (lists : List (List β)) : Nat :=
  (lists.map (fun list => list.length !)).prod

theorem arrangements_step (before after : List (List β)) (item : β) (rest : List β) :
    arrangements (before ++ (item :: rest) :: after) =
      (rest.length + 1) * arrangements (before ++ rest :: after) := by
  simp only [arrangements, List.map_append, List.map_cons, List.prod_append, List.prod_cons,
    List.length_cons, Nat.factorial_succ]
  ac_rfl

/-- Each source occurs as often as its list has items. -/
def OrderOf (lists : List (List β)) (order : List Nat) : Prop :=
  ∀ source, order.count source = (lists.getD source []).length

theorem OrderOf.nil_of_empty {lists : List (List β)} {order : List Nat}
    (ordered : OrderOf lists order) (empty : size lists = 0) : order = [] := by
  rw [List.eq_nil_iff_forall_not_mem]
  intro source member
  have positive := List.count_pos_iff.mpr member
  have used : ∀ list ∈ lists, list = [] := by
    cases Interleaving.of_size_zero lists empty with
    | done used => exact used
  rw [ordered source, List.getD_eq_getElem?_getD] at positive
  cases there : lists[source]? with
  | none => simp [there] at positive
  | some list => simp [there, used list (List.mem_of_getElem? there)] at positive

theorem OrderOf.step {before after : List (List β)} {item : β} {rest : List β} {order : List Nat}
    (ordered : OrderOf (before ++ (item :: rest) :: after) (before.length :: order)) :
    OrderOf (before ++ rest :: after) order := by
  intro source
  have counted := ordered source
  rw [getD_split] at counted ⊢
  by_cases here : source = before.length
  · subst here
    simpa using counted
  · simpa [here, List.count_cons_of_ne (Ne.symm here)] using counted

/-- The first source of an order has an item left. -/
theorem OrderOf.exists_first {lists : List (List β)} {source : Nat} {order : List Nat}
    (ordered : OrderOf lists (source :: order)) : ∃ before item rest after,
      before.length = source ∧ lists = before ++ (item :: rest) :: after := by
  have counted := ordered source
  rw [List.count_cons_self, List.getD_eq_getElem?_getD] at counted
  cases there : lists[source]? with
  | none => simp [there] at counted
  | some list =>
      cases list with
      | nil => simp [there] at counted
      | cons item rest =>
          obtain ⟨within, same⟩ := List.getElem?_eq_some_iff.mp there
          refine ⟨lists.take source, item, rest, lists.drop (source + 1), ?_, ?_⟩
          · simp only [List.length_take]
            omega
          · rw [← same, List.getElem_cons_drop, List.take_append_drop]

theorem arrangements_of_empty {lists : List (List β)} (none_left : size lists = 0) :
    arrangements lists = 1 := by
  have empty : ∀ list ∈ lists, list = [] := by
    cases Interleaving.of_size_zero lists none_left with
    | done used => exact used
  refine List.prod_eq_one (fun number member => ?_)
  obtain ⟨list, listed, rfl⟩ := List.mem_map.mp member
  rw [empty list listed]
  rfl

/-- A number outside the stretch of a list falls in that of another list. -/
theorem exists_other_stretch {before after : List (List β)} {item : β} {rest : List β} {pick : Nat}
    (below : pick < size (before ++ (item :: rest) :: after))
    (outside : pick < size before ∨ size before + (rest.length + 1) ≤ pick) :
    ∃ front other others back place,
      before ++ (item :: rest) :: after = front ++ (other :: others) :: back ∧
      pick = size front + place ∧ place ≤ others.length ∧ front.length ≠ before.length := by
  obtain ⟨front, other, others, back, place, same, rfl, inside⟩ := exists_stretch _ pick below
  refine ⟨front, other, others, back, place, same, rfl, inside, fun equal => ?_⟩
  obtain ⟨rfl, tails⟩ := List.append_inj same.symm equal
  cases tails
  omega

/-- **Counting merges.**  Of all sequences of numbers, as many lead to one order of the lists as
the product of the factorials of their lengths. -/
theorem count_drawSequences (count : Nat) : ∀ (lists : List (List (Nat × β))) (order : List Nat),
    size lists = count → Numbered lists → OrderOf lists order →
    (drawSequences count).countP (fun picks => (merged picks lists).map Prod.fst = order) =
      arrangements lists := by
  induction count with
  | zero =>
      intro lists order counted _ ordered
      rw [ordered.nil_of_empty counted, arrangements_of_empty counted]
      rfl
  | succ left ih =>
      intro lists order counted known ordered
      cases order with
      | nil =>
          obtain ⟨before, item, rest, after, place, rfl, _, _⟩ :=
            exists_stretch lists 0 (by omega)
          have none_left := ordered before.length
          rw [getD_split] at none_left
          simp at none_left
      | cons source order =>
          obtain ⟨before, item, rest, after, rfl, rfl⟩ := ordered.exists_first
          have width : left + 1 = size before + (rest.length + 1) + size after := by
            rw [← counted, size_append]
            simp only [size, List.map_cons, List.foldr_cons, List.length_cons]
            omega
          have smaller : size (before ++ rest :: after) = left := by
            rw [Interleaving.size_step] at counted
            omega
          rw [drawSequences, List.countP_flatMap, width, arrangements_step]
          apply sum_stretch
          · intro place inside
            rw [Function.comp_apply, List.countP_map, ← ih _ order smaller known.step ordered.step]
            congr 1
            funext picks
            simp [merged, takeFirst_at (Nat.le_of_lt_succ inside), known.first]
          · intro pick below outside
            have counted_below : pick < size (before ++ (item :: rest) :: after) := by omega
            obtain ⟨front, other, others, back, place, same, rfl, inside, differs⟩ :=
              exists_other_stretch counted_below outside
            rw [Function.comp_apply, List.countP_map, List.countP_eq_zero]
            intro picks _
            rw [same] at known ⊢
            simp [merged, takeFirst_at inside, known.first, differs]

/-! ## The compositor -/

/-- The count of all units of some streams. -/
def unitCount (streams : List (Stream α)) : Nat :=
  size (streams.map Stream.units)

/-- The units of the streams as numbers take them, each with the number of its stream. -/
def mergedUnits (picks : List Nat) (streams : List (Stream α)) : List (Nat × List α) :=
  merged picks (numbered (streams.map Stream.units))

/-- Every unit of every stream once, nothing else, and those of one stream in their order. -/
structure Merges (streams : List (Stream α)) (units : List (Nat × List α)) : Prop where
  interleaved : Interleaving (streams.map Stream.units) (units.map Prod.snd)
  in_order : ∀ source, (units.filter (fun unit => unit.1 = source)).map Prod.snd =
    (streams.map Stream.units).getD source []

theorem unitCount_numbered (streams : List (Stream α)) :
    size (numbered (streams.map Stream.units)) = unitCount streams := by
  rw [unitCount]
  conv_rhs => rw [← map_snd_numbered (streams.map Stream.units)]
  simp [size, Function.comp_def]

theorem arrangements_numbered (lists : List (List β)) :
    arrangements (numbered lists) = arrangements lists := by
  conv_rhs => rw [← map_snd_numbered lists]
  simp [arrangements, Function.comp_def]

theorem map_snd_mergedUnits (picks : List Nat) (streams : List (Stream α)) :
    (mergedUnits picks streams).map Prod.snd = merged picks (streams.map Stream.units) := by
  rw [mergedUnits, ← merged_map, map_snd_numbered]

theorem mergedUnits_merges {streams : List (Stream α)} {picks : List Nat}
    (drawn : DrawnFor (unitCount streams) picks) : Merges streams (mergedUnits picks streams) where
  interleaved := by
    rw [map_snd_mergedUnits]
    exact merged_interleaves _ picks _ rfl drawn
  in_order source := by
    rw [mergedUnits, (numbered_numbered _).filter_interleaving
      (merged_interleaves _ picks _ (unitCount_numbered streams) drawn), getD_numbered]

/-- The compositor draws the numbers and merges by them, and leaves no unit out. -/
theorem randomCompositor_drawn (streams : List (Stream α)) :
    randomCompositor streams = (do
      let picks ← drawPicks (unitCount streams)
      pure (Stream.ofUnits ((mergedUnits picks streams).map Prod.snd))) := by
  simp only [randomCompositor, interleave_drawn, bind_assoc, pure_bind, map_snd_mergedUnits]
  rfl

theorem count_merges {streams : List (Stream α)} {order : List Nat}
    (ordered : ∀ source, order.count source = ((streams.map Stream.units).getD source []).length) :
    {picks | DrawnFor (unitCount streams) picks ∧
      (mergedUnits picks streams).map Prod.fst = order}.ncard =
        (streams.map (fun stream => stream.units.length !)).prod := by
  have ordered_numbers : OrderOf (numbered (streams.map Stream.units)) order := by
    intro source
    rw [ordered, ← getD_numbered, List.length_map]
  rw [ncard_drawnFor (unitCount streams)]
  refine (count_drawSequences (unitCount streams) _ order (unitCount_numbered streams)
    (numbered_numbered _) ordered_numbers).trans ?_
  rw [arrangements_numbered, arrangements, List.map_map]
  rfl

/-- **The random compositor is uniform.**  It draws one number for each unit, below the count of
units that are left, and merges the streams by them.  All of the as many sequences of such numbers
as there are permutations of the units make an interleaving of the streams, with the units of each
stream in their order; and every order in which the streams can take turns comes of equally many
of them, the product of the factorials of the streams' lengths. -/
theorem random_merges_uniform (streams : List (Stream α)) :
    randomCompositor streams = (do
        let picks ← drawPicks (unitCount streams)
        pure (Stream.ofUnits ((mergedUnits picks streams).map Prod.snd))) ∧
      Draw.Always (drawPicks (unitCount streams)) (DrawnFor (unitCount streams)) ∧
      {picks | DrawnFor (unitCount streams) picks}.ncard = (unitCount streams) ! ∧
      (∀ picks, DrawnFor (unitCount streams) picks →
        Merges streams (mergedUnits picks streams) ∧
        (Stream.ofUnits ((mergedUnits picks streams).map Prod.snd)).units =
          (mergedUnits picks streams).map Prod.snd) ∧
      ∀ order : List Nat,
        (∀ source, order.count source =
          ((streams.map Stream.units).getD source []).length) →
        {picks | DrawnFor (unitCount streams) picks ∧
          (mergedUnits picks streams).map Prod.fst = order}.ncard =
            (streams.map (fun stream => stream.units.length !)).prod := by
  refine ⟨randomCompositor_drawn streams, drawPicks_drawnFor _, ?_, ?_, ?_⟩
  · have all := ncard_drawnFor (unitCount streams) (fun _ => True)
    simpa [length_drawSequences] using all
  · intro picks drawn
    have merges := mergedUnits_merges drawn
    exact ⟨merges, units_ofUnits merges.interleaved⟩
  · intro order ordered
    exact count_merges ordered

/-- Streams of two units and of one: each of the three orders comes of two of six sequences. -/
theorem random_merges_uniform_two_one :
    let streams : List (Stream Nat) := [Stream.ofUnits [[1], [2]], Stream.ofUnits [[3]]]
    DrawnFor 3 [2, 0, 0] ∧ mergedUnits [2, 0, 0] streams = [(1, [3]), (0, [1]), (0, [2])] ∧
      Merges streams (mergedUnits [2, 0, 0] streams) ∧
      {picks | DrawnFor 3 picks ∧
        (mergedUnits picks streams).map Prod.fst = [1, 0, 0]}.ncard = 2 := by
  intro streams
  have uniform := random_merges_uniform streams
  have drawn : DrawnFor 3 [2, 0, 0] := (mem_drawSequences 3 _).mp (by decide)
  refine ⟨drawn, rfl, (uniform.2.2.2.1 [2, 0, 0] drawn).1, ?_⟩
  refine uniform.2.2.2.2 [1, 0, 0] (fun source => ?_)
  rcases source with _ | _ | source <;> simp [streams, Stream.ofUnits]

end TestProgram.Strategy
