/-
# TestProgram.KeyMap -- tables keyed by text

A table is a list of pairs in the order of their keys (code point by code point,
which is also the order of the UTF-8 bytes), at most one pair a key.  Attribute
maps, the named tables of a template file and the tables of a session are all of
this form, so what is printed from one comes out in key order.

`insert` keeps the order and replaces an earlier pair of the same key
(`find?_insert_self`, `find?_insert_of_ne`); a table holds nothing that was not put
into it (`mem_insert`, `mem_ofList`).
-/
namespace TestProgram

set_option autoImplicit false

universe u

abbrev KeyMap (α : Type u) := List (String × α)

namespace KeyMap

variable {α : Type u}

def find? : KeyMap α → String → Option α
  | [], _ => none
  | (first, held) :: rest, key => if key = first then some held else find? rest key

def contains (table : KeyMap α) (key : String) : Bool :=
  (table.find? key).isSome

def insert : KeyMap α → String → α → KeyMap α
  | [], key, value => [(key, value)]
  | (first, held) :: rest, key, value =>
      if key = first then (key, value) :: rest
      else if key < first then (key, value) :: (first, held) :: rest
      else (first, held) :: insert rest key value

/-- The table of some pairs; of two pairs with one key the later one counts. -/
def ofList (pairs : List (String × α)) : KeyMap α :=
  pairs.foldl (fun table pair => insert table pair.1 pair.2) []

def erase (table : KeyMap α) (key : String) : KeyMap α :=
  table.filter (fun pair => pair.1 != key)

theorem find?_insert_self (table : KeyMap α) (key : String) (value : α) :
    (table.insert key value).find? key = some value := by
  induction table with
  | nil => simp [insert, find?]
  | cons pair rest ih =>
    obtain ⟨first, held⟩ := pair
    unfold insert
    split
    · simp [find?]
    · rename_i ne
      split
      · simp [find?]
      · simpa [find?, ne] using ih

theorem find?_insert_of_ne (table : KeyMap α) {key other : String} (value : α)
    (ne : other ≠ key) : (table.insert key value).find? other = table.find? other := by
  induction table with
  | nil => simp [insert, find?, ne]
  | cons pair rest ih =>
    obtain ⟨first, held⟩ := pair
    unfold insert
    split
    · rename_i same
      subst same
      simp [find?, ne]
    · split
      · simp [find?, ne]
      · simp [find?, ih]

theorem mem_of_find? {table : KeyMap α} {key : String} {value : α}
    (found : table.find? key = some value) : (key, value) ∈ table := by
  induction table with
  | nil => cases found
  | cons pair rest ih =>
      obtain ⟨first, held⟩ := pair
      rw [find?] at found
      split at found
      · rename_i same
        cases found
        simp [same]
      · simp [ih found]

theorem mem_insert {table : KeyMap α} {key : String} {value : α} {pair : String × α}
    (member : pair ∈ table.insert key value) : pair = (key, value) ∨ pair ∈ table := by
  induction table with
  | nil => simpa [insert] using member
  | cons head rest ih =>
      obtain ⟨first, held⟩ := head
      rw [insert] at member
      split at member
      · rcases List.mem_cons.mp member with here | later
        · exact .inl here
        · exact .inr (by simp [later])
      · split at member
        · simpa using member
        · rcases List.mem_cons.mp member with here | later
          · exact .inr (by simp [here])
          · exact (ih later).imp id (by simp +contextual)

theorem mem_ofList {pairs : List (String × α)} {pair : String × α}
    (member : pair ∈ ofList pairs) : pair ∈ pairs := by
  have grown : ∀ (pairs : List (String × α)) (table : KeyMap α),
      pair ∈ pairs.foldl (fun table pair => insert table pair.1 pair.2) table →
        pair ∈ table ∨ pair ∈ pairs := by
    intro pairs
    induction pairs with
    | nil => exact fun table member => .inl member
    | cons first rest ih =>
        intro table member
        rcases ih _ member with held | later
        · rcases mem_insert held with here | before
          · exact .inr (by simp [here])
          · exact .inl before
        · exact .inr (by simp [later])
  rcases grown pairs [] member with none_yet | here
  · cases none_yet
  · exact here

end KeyMap
end TestProgram
