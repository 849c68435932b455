/-
# TestProgram.Proofs.Thinning -- lists without some of their items

`Thinned` relates a list to what is left of it when some bare items are left out and the others
are changed; a mask tells which items were kept.  An item that is kept goes to the place that
counts what was kept before it (`place`), so the order of the items left is the order they had
(`place_lt_iff`), and what holds of an item can be read off at its place on either side
(`Thinned.kept_at`, `Thinned.source`).
-/
import Mathlib.Data.List.Forall2
import Mathlib.Tactic.ByContra

namespace TestProgram

set_option autoImplicit false

/-! ## Lists without some of their items -/

section Thinning

variable {α β : Type} {R : α → β → Prop} {bare : α → Bool}

/-- The second list is the first with some bare items left out and the others related to
theirs; the mask tells which items were kept. -/
inductive Thinned (R : α → β → Prop) (bare : α → Bool) : List Bool → List α → List β → Prop
  | nil : Thinned R bare [] [] []
  | keep {kept : List Bool} {rest : List α} {others : List β} {item : α} {other : β}
      (related : R item other) (later : Thinned R bare kept rest others) :
      Thinned R bare (true :: kept) (item :: rest) (other :: others)
  | drop {kept : List Bool} {rest : List α} {others : List β} {item : α}
      (left_out : bare item = true) (later : Thinned R bare kept rest others) :
      Thinned R bare (false :: kept) (item :: rest) others

theorem Thinned.append {kept later : List Bool} {items rest : List α} {others behind : List β}
    (first : Thinned R bare kept items others) (second : Thinned R bare later rest behind) :
    Thinned R bare (kept ++ later) (items ++ rest) (others ++ behind) := by
  induction first with
  | nil => exact second
  | keep related _ ih => exact .keep related ih
  | drop left_out _ ih => exact .drop left_out ih

/-- Nothing has to be left out. -/
theorem Thinned.of_paired {items : List α} {others : List β}
    (paired : List.Forall₂ R items others) :
    Thinned R bare (items.map (fun _ => true)) items others := by
  induction paired with
  | nil => exact .nil
  | cons related _ ih => exact .keep related ih

/-- Bare items can all be left out. -/
theorem Thinned.of_bare {items : List α} (all : ∀ item ∈ items, bare item = true) :
    Thinned R bare (items.map (fun _ => false)) items [] := by
  induction items with
  | nil => exact .nil
  | cons item _ ih =>
      exact .drop (all item (by simp)) (ih (fun other member => all other (by simp [member])))

/-- Where everything is kept the lists are paired. -/
theorem Thinned.paired {kept : List Bool} {items : List α} {others : List β}
    (thinned : Thinned R bare kept items others) (whole : false ∉ kept) :
    List.Forall₂ R items others := by
  induction thinned with
  | nil => exact .nil
  | keep related _ ih => exact .cons related (ih (fun gone => whole (List.mem_cons_of_mem _ gone)))
  | drop _ _ _ => exact absurd List.mem_cons_self whole

/-- What is not bare is kept. -/
theorem Thinned.ne_nil {kept : List Bool} {items : List α} {others : List β}
    (thinned : Thinned R bare kept items others) {item : α} (member : item ∈ items)
    (spoken : bare item = false) : others ≠ [] := by
  induction thinned with
  | nil => cases member
  | keep _ _ _ => exact List.cons_ne_nil _ _
  | drop left_out _ ih =>
      rcases List.mem_cons.mp member with rfl | later
      · rw [left_out] at spoken
        cases spoken
      · exact ih later

end Thinning

/-! ## Where an item goes -/

/-- The place of an item when those that are not kept are gone. -/
def place (kept : List Bool) (position : Nat) : Nat :=
  (kept.take position).count true

@[simp] theorem place_kept (kept : List Bool) (position : Nat) :
    place (true :: kept) (position + 1) = place kept position + 1 := by
  simp [place]

@[simp] theorem place_dropped (kept : List Bool) (position : Nat) :
    place (false :: kept) (position + 1) = place kept position := by
  simp [place]

theorem place_succ (kept : List Bool) (position : Nat) :
    place kept (position + 1) =
      place kept position + if kept[position]? = some true then 1 else 0 := by
  induction kept generalizing position with
  | nil => simp [place]
  | cons first rest ih =>
      cases position with
      | zero => cases first <;> simp [place]
      | succ position =>
          cases first with
          | true => rw [place_kept, place_kept, ih]; simp; omega
          | false => rw [place_dropped, place_dropped, ih]; simp

theorem place_le (kept : List Bool) {first second : Nat} (ordered : first ≤ second) :
    place kept first ≤ place kept second := by
  induction ordered with
  | refl => exact Nat.le_refl _
  | step _ ih => exact Nat.le_trans ih (by rw [place_succ]; omega)

/-- Items that are kept stay in order. -/
theorem place_lt {kept : List Bool} {first second : Nat} (held : kept[first]? = some true)
    (ordered : first < second) : place kept first < place kept second := by
  have next : place kept (first + 1) = place kept first + 1 := by
    rw [place_succ, if_pos held]
  have := place_le kept (show first + 1 ≤ second from ordered)
  omega

theorem place_lt_iff {kept : List Bool} {first second : Nat} (held : kept[first]? = some true) :
    place kept first < place kept second ↔ first < second := by
  constructor
  · intro moved
    by_contra not_before
    have := place_le kept (Nat.le_of_not_lt not_before)
    omega
  · exact place_lt held

theorem place_inj {kept : List Bool} {first second : Nat} (held : kept[first]? = some true)
    (other_held : kept[second]? = some true) (same : place kept first = place kept second) :
    first = second := by
  rcases Nat.lt_trichotomy first second with before | same | behind
  · have := place_lt held before
    omega
  · exact same
  · have := place_lt other_held behind
    omega

/-- Where everything is kept, distances are. -/
theorem place_add {kept : List Bool} {first : Nat} : ∀ {count : Nat},
    (∀ between, first ≤ between → between < first + count → kept[between]? = some true) →
    place kept (first + count) = place kept first + count
  | 0, _ => rfl
  | count + 1, all => by
      have here := all (first + count) (by omega) (by omega)
      have before := @place_add kept first count (fun between low high => all between low (by omega))
      rw [← Nat.add_assoc, place_succ, if_pos here, before]
      omega

section Places

variable {α β : Type} {R : α → β → Prop} {bare : α → Bool} {kept : List Bool} {items : List α}
  {others : List β}

theorem Thinned.length (thinned : Thinned R bare kept items others) :
    items.length = kept.length := by
  induction thinned with
  | nil => rfl
  | keep _ _ ih => simp [ih]
  | drop _ _ ih => simp [ih]

theorem Thinned.size (thinned : Thinned R bare kept items others) :
    others.length = kept.count true := by
  induction thinned with
  | nil => rfl
  | keep _ _ ih => simp [ih]
  | drop _ _ ih => simp [ih]

theorem Thinned.kept_at (thinned : Thinned R bare kept items others) :
    ∀ {position : Nat} {item : α},
    kept[position]? = some true → items[position]? = some item →
    ∃ other, others[place kept position]? = some other ∧ R item other := by
  induction thinned with
  | nil => intro position item held; cases held
  | keep related _ ih =>
      intro position item held found
      cases position with
      | zero =>
          cases found
          exact ⟨_, rfl, related⟩
      | succ position => simpa using ih held found
  | drop _ _ ih =>
      intro position item held found
      cases position with
      | zero => cases held
      | succ position => simpa using ih held found

/-- What is not kept is bare. -/
theorem Thinned.kept_of (thinned : Thinned R bare kept items others) :
    ∀ {position : Nat} {item : α}, items[position]? = some item → bare item = false →
    kept[position]? = some true := by
  induction thinned with
  | nil => intro position item found; cases found
  | keep _ _ ih =>
      intro position item found spoken
      cases position with
      | zero => rfl
      | succ position => exact ih found spoken
  | drop left_out _ ih =>
      intro position item found spoken
      cases position with
      | zero =>
          cases found
          rw [left_out] at spoken
          cases spoken
      | succ position => exact ih found spoken

/-- Every item left over comes from one that was kept. -/
theorem Thinned.source (thinned : Thinned R bare kept items others) :
    ∀ {position : Nat} {other : β}, others[position]? = some other →
    ∃ source item, kept[source]? = some true ∧ items[source]? = some item ∧
      place kept source = position ∧ R item other := by
  induction thinned with
  | nil => intro position other found; cases found
  | keep related _ ih =>
      intro position other found
      cases position with
      | zero =>
          cases found
          exact ⟨0, _, rfl, rfl, rfl, related⟩
      | succ position =>
          obtain ⟨source, item, held, there, same, here⟩ := ih found
          exact ⟨source + 1, item, held, there, by simp [same], here⟩
  | drop _ _ ih =>
      intro position other found
      obtain ⟨source, item, held, there, same, here⟩ := ih found
      exact ⟨source + 1, item, held, there, by simp [same], here⟩

/-- Two lists are related so when they are place by place. -/
theorem Thinned.of_places (length : items.length = kept.length)
    (size : others.length = kept.count true)
    (dropped : ∀ (position : Nat) item, kept[position]? = some false →
      items[position]? = some item → bare item = true)
    (held : ∀ (position : Nat) item other, kept[position]? = some true →
      items[position]? = some item → others[place kept position]? = some other → R item other) :
    Thinned R bare kept items others := by
  induction kept generalizing items others with
  | nil =>
      obtain rfl := List.eq_nil_of_length_eq_zero length
      obtain rfl := List.eq_nil_of_length_eq_zero size
      exact .nil
  | cons first kept ih =>
      obtain ⟨item, items, rfl⟩ := List.exists_cons_of_length_eq_add_one length
      have length_later : items.length = kept.length := by simpa using length
      have dropped_later : ∀ (position : Nat) entry, kept[position]? = some false →
          items[position]? = some entry → bare entry = true :=
        fun position => dropped (position + 1)
      cases first with
      | true =>
          rw [List.count_cons_self] at size
          obtain ⟨other, others, rfl⟩ := List.exists_cons_of_length_eq_add_one size
          refine .keep (held 0 item other rfl rfl rfl)
            (ih length_later (by simpa using size) dropped_later ?_)
          intro position entry counterpart here found there
          exact held (position + 1) entry counterpart here found (by simpa using there)
      | false =>
          refine .drop (dropped 0 item rfl rfl) (ih length_later (by simpa using size) dropped_later ?_)
          intro position entry counterpart here found there
          exact held (position + 1) entry counterpart here found (by simpa using there)

/-- What only items have that were kept is related item by item. -/
theorem Thinned.filter (thinned : Thinned R bare kept items others) {here : α → Bool}
    {there : β → Bool} (same : ∀ item other, R item other → here item = there other)
    (none_bare : ∀ item, bare item = true → here item = false) :
    List.Forall₂ R (items.filter here) (others.filter there) := by
  induction thinned with
  | nil => exact .nil
  | keep related _ ih =>
      rw [List.filter_cons, List.filter_cons, same _ _ related]
      split
      · exact .cons related ih
      · exact ih
  | drop left_out _ ih =>
      rw [List.filter_cons, none_bare _ left_out]
      exact ih

end Places

end TestProgram
