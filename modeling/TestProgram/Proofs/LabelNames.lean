/-
# TestProgram.Proofs.LabelNames -- when the labels of a sequence are told apart by their text

Three rules name the labels of a sequence: a global label keeps its name, of weak ones of a
name at most one is left, and a local one is numbered by its earlier occurrences.  What a
label is printed with is therefore a name and a number (`key?`), and only local labels have a
number that is not 0.

Keys that are printed alike are not always the same: `a` with number 1 and `a_1` with number
0 are both printed `a_1`.  So the texts of a sequence are different from each other exactly
when no name is global twice, none is both global and local, and no numbered text is the
name of another label (`ToldApart`).  This is proved of the keys of any labels
(`keyTexts_nodup_iff`) and carries over to what `finalize` makes of a stream.
-/
import TestProgram.Proofs.Finalization
import TestProgram.Proofs.Resolution
import Mathlib.Data.List.Nodup

namespace TestProgram

set_option autoImplicit false

/-! ## Numbered texts -/

namespace Ledger

theorem toList_suffixed {name : String} {count : Nat} (positive : 0 < count) :
    (suffixed name count).toList = name.toList ++ '_' :: Nat.toDigits 10 count := by
  rw [suffixed, if_neg (by omega)]
  simp

/-- Two lists that agree and have a separator each, the first in both, agree before it and
behind it. -/
theorem separated_inj {α : Type} {separator : α} {first rest : List α} :
    ∀ {second others : List α}, separator ∉ first → separator ∉ second →
      first ++ separator :: rest = second ++ separator :: others →
      first = second ∧ rest = others := by
  induction first with
  | nil =>
      intro second others _ absent same
      cases second with
      | nil => exact ⟨rfl, (List.cons.inj same).2⟩
      | cons item later =>
          obtain ⟨rfl, _⟩ := List.cons.inj same
          exact absurd List.mem_cons_self absent
  | cons item later ih =>
      intro second others missing absent same
      cases second with
      | nil =>
          obtain ⟨rfl, _⟩ := List.cons.inj same
          exact absurd List.mem_cons_self missing
      | cons other further =>
          obtain ⟨rfl, tail⟩ := List.cons.inj same
          obtain ⟨rfl, behind⟩ := ih (fun member => missing (List.mem_cons_of_mem _ member))
            (fun member => absent (List.mem_cons_of_mem _ member)) tail
          exact ⟨rfl, behind⟩

/-- A numbered text tells its name and its number: the digits behind its last `_`. -/
theorem suffixed_inj {name other : String} {count number : Nat} (positive : 0 < count)
    (also_positive : 0 < number) (same : suffixed name count = suffixed other number) :
    name = other ∧ count = number := by
  have lists := congrArg String.toList same
  rw [toList_suffixed positive, toList_suffixed also_positive] at lists
  have reversed := congrArg List.reverse lists
  simp only [List.reverse_append, List.reverse_cons, List.append_assoc, List.singleton_append]
    at reversed
  have no_separator : ∀ number : Nat, '_' ∉ (Nat.toDigits 10 number).reverse := by
    intro number member
    exact Nat.underscore_not_in_toDigits (List.mem_reverse.mp member)
  obtain ⟨digits, names⟩ := separated_inj (no_separator count) (no_separator number) reversed
  constructor
  · exact String.toList_inj.mp (List.reverse_injective names)
  · have equal := congrArg (Nat.ofDigitChars 10 · 0) (List.reverse_injective digits)
    simpa [Nat.ofDigitChars_ten_toDigits] using equal

end Ledger

/-! ## Roles -/

/-- What decides how a label is printed; `plain` labels are local ones with a name. -/
inductive Role
  | numeric
  | weak (name : String)
  | global (name : String)
  | plain (name : String)

def Label.role (label : Label) : Role :=
  match label.name with
  | .numeric _ => .numeric
  | .named name =>
      if label.isWeak then .weak name else if label.isGlobal then .global name else .plain name

namespace Role

def weak? : Role → Option String
  | weak name => some name
  | _ => none

def global? : Role → Option String
  | global name => some name
  | _ => none

def plain? : Role → Option String
  | plain name => some name
  | _ => none

end Role

/-- What becomes of a label, by its role. -/
theorem Ledger.place_eq (strong : List String) (ledger : Ledger) (label : Label) :
    ledger.place strong label =
      match label.role with
      | .numeric => (some ⟨label, label.name.render⟩, ledger)
      | .weak name =>
          if name ∈ strong ∨ name ∈ ledger.weak then (none, ledger)
          else (some ⟨label, name⟩, { ledger with weak := name :: ledger.weak })
      | .global name => (some ⟨label, name⟩, ledger)
      | .plain name =>
          (some ⟨label, Ledger.suffixed name ((ledger.counts.find? name).getD 0)⟩,
            { ledger with
              counts := ledger.counts.insert name ((ledger.counts.find? name).getD 0 + 1) }) := by
  obtain ⟨name_is, isGlobal, isWeak, scope⟩ := label
  cases name_is with
  | numeric slot => rfl
  | named name =>
      cases isWeak with
      | true => simp [Ledger.place, Label.role]
      | false =>
          cases isGlobal with
          | true => rfl
          | false => rfl

/-- The text of a label that is printed and has a name. -/
def PlacedLabel.namedText? (placed : PlacedLabel) : Option String :=
  match placed.label.name with
  | .named _ => some placed.rendered
  | .numeric _ => none

theorem PlacedLabel.namedText?_eq (label : Label) (text : String) :
    PlacedLabel.namedText? ⟨label, text⟩ =
      match label.role with
      | .numeric => none
      | _ => some text := by
  obtain ⟨name_is, isGlobal, isWeak, scope⟩ := label
  cases name_is with
  | numeric slot => rfl
  | named name => cases isWeak <;> cases isGlobal <;> rfl

theorem Ledger.placeAll_cons (strong : List String) (ledger : Ledger) (label : Label)
    (rest : List Label) :
    (ledger.placeAll strong (label :: rest)).1 =
        (ledger.place strong label).1.toList ++
          ((ledger.place strong label).2.placeAll strong rest).1 ∧
      (ledger.placeAll strong (label :: rest)).2.2 =
        ((ledger.place strong label).2.placeAll strong rest).2.2 := by
  rw [Ledger.placeAll]
  rcases ledger.place strong label with ⟨_ | placed, after⟩
  · exact ⟨rfl, rfl⟩
  · exact ⟨rfl, rfl⟩

namespace LabelNames

/-! ## Names by their roles -/

section Names

variable (labels : List Label)

def weakNames : List String := labels.filterMap (fun label => label.role.weak?)

def globalNames : List String := labels.filterMap (fun label => label.role.global?)

def plainNames : List String := labels.filterMap (fun label => label.role.plain?)

end Names

theorem weakNames_concat (before : List Label) (label : Label) :
    weakNames (before ++ [label]) = weakNames before ++ label.role.weak?.toList := by
  rw [weakNames, List.filterMap_append]
  cases there : label.role.weak? <;> simp [there, weakNames]

theorem plainNames_concat (before : List Label) (label : Label) :
    plainNames (before ++ [label]) = plainNames before ++ label.role.plain?.toList := by
  rw [plainNames, List.filterMap_append]
  cases there : label.role.plain? <;> simp [there, plainNames]

/-! ## Keys -/

/-- The name and the number that a label is printed with behind some others, if it is printed
and has a name. -/
def key? (strong : List String) (before : List Label) : Role → Option (String × Nat)
  | .numeric => none
  | .weak name => if name ∈ strong ∨ name ∈ weakNames before then none else some (name, 0)
  | .global name => some (name, 0)
  | .plain name => some (name, (plainNames before).count name)

def keys (strong : List String) : List Label → List Label → List (String × Nat)
  | _, [] => []
  | before, label :: rest =>
      (key? strong before label.role).toList ++ keys strong (before ++ [label]) rest

def keyText (key : String × Nat) : String :=
  Ledger.suffixed key.1 key.2

/-- The ledger holds what there is to know of the labels before. -/
structure Follows (strong : List String) (ledger : Ledger) (before : List Label) :
    Prop where
  weak : ∀ name, name ∉ strong → (name ∈ ledger.weak ↔ name ∈ weakNames before)
  counts : ∀ name, (ledger.counts.find? name).getD 0 = (plainNames before).count name

theorem follows_empty (strong : List String) : Follows strong {} [] :=
  ⟨fun _ _ => by simp [weakNames], fun _ => rfl⟩

/-- One label: it is printed by its key, and the ledger goes on to follow. -/
theorem place_follows {strong : List String} {ledger : Ledger} {before : List Label}
    (follows : Follows strong ledger before) (label : Label) :
    (ledger.place strong label).1.bind PlacedLabel.namedText? =
        (key? strong before label.role).map keyText ∧
      Follows strong (ledger.place strong label).2 (before ++ [label]) := by
  rw [Ledger.place_eq]
  cases role_is : label.role with
  | numeric =>
      refine ⟨by simp [PlacedLabel.namedText?_eq, role_is, key?], ?_⟩
      refine ⟨fun name free => ?_, fun name => ?_⟩
      · simpa [weakNames_concat, role_is, Role.weak?] using follows.weak name free
      · simpa [plainNames_concat, role_is, Role.plain?] using follows.counts name
  | global declared =>
      refine ⟨by simp [PlacedLabel.namedText?_eq, role_is, key?, keyText, Ledger.suffixed], ?_⟩
      refine ⟨fun name free => ?_, fun name => ?_⟩
      · simpa [weakNames_concat, role_is, Role.weak?] using follows.weak name free
      · simpa [plainNames_concat, role_is, Role.plain?] using follows.counts name
  | plain declared =>
      refine ⟨by simp [PlacedLabel.namedText?_eq, role_is, key?, keyText, follows.counts], ?_⟩
      refine ⟨fun name free => ?_, fun name => ?_⟩
      · simpa [weakNames_concat, role_is, Role.weak?] using follows.weak name free
      · rw [plainNames_concat, role_is, List.count_append, ← follows.counts name]
        by_cases same : name = declared
        · subst same
          simp [Role.plain?, KeyMap.find?_insert_self]
        · have other : declared ≠ name := fun equal => same equal.symm
          simp [Role.plain?, KeyMap.find?_insert_of_ne _ _ same, other]
  | weak declared =>
      -- a name that no strong label takes is in the ledger when it was declared before
      have known : declared ∈ strong ∨ declared ∈ ledger.weak ↔
          declared ∈ strong ∨ declared ∈ weakNames before := by
        by_cases taken : declared ∈ strong
        · simp [taken]
        · simp [taken, follows.weak declared taken]
      have counts : ∀ name, (ledger.counts.find? name).getD 0 =
          (plainNames (before ++ [label])).count name := by
        intro name
        simpa [plainNames_concat, role_is, Role.plain?] using follows.counts name
      have weak_concat : weakNames (before ++ [label]) = weakNames before ++ [declared] := by
        simp [weakNames_concat, role_is, Role.weak?]
      by_cases yields : declared ∈ strong ∨ declared ∈ ledger.weak
      · simp only [if_pos yields]
        refine ⟨by simp [key?, known.mp yields], ⟨fun name free => ?_, counts⟩⟩
        rw [weak_concat, List.mem_append, List.mem_singleton, follows.weak name free]
        constructor
        · exact .inl
        · rintro (held | rfl)
          · exact held
          · exact (known.mp yields).resolve_left free
      · simp only [if_neg yields]
        have shown : key? strong before (.weak declared) = some (declared, 0) := by
          rw [key?, if_neg (fun taken => yields (known.mpr taken))]
        refine ⟨by simp [shown, PlacedLabel.namedText?_eq, role_is, keyText, Ledger.suffixed],
          ⟨fun name free => ?_, counts⟩⟩
        rw [weak_concat, List.mem_append, List.mem_singleton, List.mem_cons, follows.weak name free,
          or_comm]

/-- All labels of a call. -/
theorem placeAll_follows {strong : List String} (labels : List Label) :
    ∀ {ledger : Ledger} {before : List Label}, Follows strong ledger before →
      (ledger.placeAll strong labels).1.filterMap PlacedLabel.namedText? =
          (keys strong before labels).map keyText ∧
        Follows strong (ledger.placeAll strong labels).2.2 (before ++ labels) := by
  induction labels with
  | nil =>
      intro ledger before follows
      exact ⟨rfl, by rwa [List.append_nil]⟩
  | cons label rest ih =>
      intro ledger before follows
      obtain ⟨shown, follows_on⟩ := place_follows follows label
      obtain ⟨others, to_the_end⟩ := ih follows_on
      rw [List.append_assoc] at to_the_end
      obtain ⟨texts, ledgers⟩ := Ledger.placeAll_cons strong ledger label rest
      refine ⟨?_, ledgers ▸ to_the_end⟩
      have here : (ledger.place strong label).1.toList.filterMap PlacedLabel.namedText? =
          ((key? strong before label.role).map keyText).toList := by
        rw [← shown]
        cases (ledger.place strong label).1 with
        | none => rfl
        | some placed => cases there : placed.namedText? <;> simp [there]
      rw [texts, List.filterMap_append, here, others, keys, List.map_append]
      cases key? strong before label.role <;> rfl

theorem keys_append (strong : List String) (first : List Label) :
    ∀ before second, keys strong before (first ++ second) =
      keys strong before first ++ keys strong (before ++ first) second := by
  induction first with
  | nil => intro before second; simp [keys]
  | cons label rest ih => intro before second; simp [keys, ih]

/-- All labels of a stream. -/
theorem placeCalls_texts {strong : List String} (calls : List Call) :
    ∀ {ledger : Ledger} {before : List Label}, Follows strong ledger before →
      (ledger.placeCalls strong calls).flatMap (List.filterMap PlacedLabel.namedText?) =
        (keys strong before (calls.flatMap Call.labels)).map keyText := by
  induction calls with
  | nil => intro ledger before _; rfl
  | cons call rest ih =>
      intro ledger before follows
      obtain ⟨texts, follows_on⟩ := placeAll_follows call.labels follows
      rw [Ledger.placeCalls, List.flatMap_cons, texts, ih follows_on, List.flatMap_cons,
        keys_append, List.map_append]

/-! ## Keys by their roles -/

/-- Local names behind some others, each with the number of its earlier occurrences. -/
def plainKeys : List String → List String → List (String × Nat)
  | _, [] => []
  | earlier, name :: rest => (name, earlier.count name) :: plainKeys (earlier ++ [name]) rest

/-- Of the weak names behind some others, those that no other label takes. -/
def weakKeys (strong : List String) : List String → List String → List (String × Nat)
  | _, [] => []
  | earlier, name :: rest =>
      if name ∈ strong ∨ name ∈ earlier then weakKeys strong (earlier ++ [name]) rest
      else (name, 0) :: weakKeys strong (earlier ++ [name]) rest

theorem mem_plainKeys {name : String} {number : Nat} (names : List String) :
    ∀ earlier, (name, number) ∈ plainKeys earlier names ↔
      earlier.count name ≤ number ∧ number < earlier.count name + names.count name := by
  induction names with
  | nil =>
      intro earlier
      simp only [plainKeys, List.not_mem_nil, List.count_nil, false_iff]
      omega
  | cons first rest ih =>
      intro earlier
      rw [plainKeys, List.mem_cons, ih, List.count_append]
      by_cases same : name = first
      · subst same
        simp only [Prod.mk.injEq, true_and, List.count_cons_self, List.count_nil]
        omega
      · have other : first ≠ name := fun equal => same equal.symm
        simp [same, List.count_cons_of_ne other]

theorem plainKeys_nodup (names : List String) : ∀ earlier, (plainKeys earlier names).Nodup := by
  induction names with
  | nil => exact fun _ => List.nodup_nil
  | cons first rest ih =>
      intro earlier
      refine List.nodup_cons.mpr ⟨fun again => ?_, ih _⟩
      have later := ((mem_plainKeys rest _).mp again).1
      rw [List.count_append, List.count_cons_self] at later
      omega

theorem mem_weakKeys {strong : List String} {name : String} {number : Nat} (names : List String) :
    ∀ earlier, (name, number) ∈ weakKeys strong earlier names ↔
      number = 0 ∧ name ∈ names ∧ name ∉ strong ∧ name ∉ earlier := by
  induction names with
  | nil => simp [weakKeys]
  | cons first rest ih =>
      intro earlier
      rw [weakKeys]
      by_cases yields : first ∈ strong ∨ first ∈ earlier
      · rw [if_pos yields, ih]
        simp only [List.mem_append, List.mem_cons, List.not_mem_nil, or_false, not_or]
        constructor
        · rintro ⟨zero, held, free, fresh, _⟩
          exact ⟨zero, .inr held, free, fresh⟩
        · rintro ⟨zero, rfl | held, free, fresh⟩
          · exact absurd yields (by simp [free, fresh])
          · refine ⟨zero, held, free, fresh, ?_⟩
            rintro rfl
            exact absurd yields (by simp [free, fresh])
      · rw [if_neg yields, List.mem_cons, ih, Prod.mk.injEq]
        simp only [List.mem_append, List.mem_cons, List.not_mem_nil, or_false, not_or] at yields ⊢
        constructor
        · rintro (⟨rfl, zero⟩ | ⟨zero, held, free, fresh, _⟩)
          · exact ⟨zero, .inl rfl, yields⟩
          · exact ⟨zero, .inr held, free, fresh⟩
        · rintro ⟨zero, held, free, fresh⟩
          by_cases same : name = first
          · exact .inl ⟨same, zero⟩
          · exact .inr ⟨zero, held.resolve_left same, free, fresh, same⟩

theorem weakKeys_nodup (strong : List String) (names : List String) :
    ∀ earlier, (weakKeys strong earlier names).Nodup := by
  induction names with
  | nil => exact fun _ => List.nodup_nil
  | cons first rest ih =>
      intro earlier
      rw [weakKeys]
      split
      · exact ih _
      · refine List.nodup_cons.mpr ⟨fun again => ?_, ih _⟩
        have fresh := ((mem_weakKeys rest _).mp again).2.2.2
        exact fresh (by simp)

theorem weakNames_cons (label : Label) (rest : List Label) :
    weakNames (label :: rest) = label.role.weak?.toList ++ weakNames rest := by
  rw [weakNames, List.filterMap_cons]
  cases label.role.weak? <;> rfl

theorem globalNames_cons (label : Label) (rest : List Label) :
    globalNames (label :: rest) = label.role.global?.toList ++ globalNames rest := by
  rw [globalNames, List.filterMap_cons]
  cases label.role.global? <;> rfl

theorem plainNames_cons (label : Label) (rest : List Label) :
    plainNames (label :: rest) = label.role.plain?.toList ++ plainNames rest := by
  rw [plainNames, List.filterMap_cons]
  cases label.role.plain? <;> rfl

/-- All keys, sorted by the roles of their labels. -/
theorem keys_perm (strong : List String) (labels : List Label) : ∀ before,
    (keys strong before labels).Perm
      ((globalNames labels).map (fun name => (name, 0)) ++
        (plainKeys (plainNames before) (plainNames labels) ++
          weakKeys strong (weakNames before) (weakNames labels))) := by
  induction labels with
  | nil => exact fun _ => .refl _
  | cons label rest ih =>
      intro before
      have later := ih (before ++ [label])
      rw [plainNames_concat, weakNames_concat] at later
      rw [keys, globalNames_cons, plainNames_cons, weakNames_cons]
      cases role_is : label.role with
      | numeric => simpa [role_is, key?, Role.weak?, Role.global?, Role.plain?] using later
      | global declared =>
          simpa [role_is, key?, Role.weak?, Role.global?, Role.plain?] using later
      | plain declared =>
          simp only [role_is, key?, Role.weak?, Role.global?, Role.plain?, Option.toList_none,
            Option.toList_some, List.append_nil, List.nil_append, List.singleton_append,
            plainKeys] at later ⊢
          exact (later.cons _).trans List.perm_middle.symm
      | weak declared =>
          simp only [role_is, key?, Role.weak?, Role.global?, Role.plain?, Option.toList_none,
            Option.toList_some, List.append_nil, List.nil_append, List.singleton_append,
            weakKeys] at later ⊢
          by_cases yields : declared ∈ strong ∨ declared ∈ weakNames before
          · rw [if_pos yields, if_pos yields]
            exact later
          · rw [if_neg yields, if_neg yields, ← List.append_assoc]
            rw [← List.append_assoc] at later
            exact (later.cons _).trans List.perm_middle.symm

/-- The keys of a whole stream. -/
theorem keys_sorted (strong : List String) (labels : List Label) :
    (keys strong [] labels).Perm
      ((globalNames labels).map (fun name => (name, 0)) ++
        (plainKeys [] (plainNames labels) ++ weakKeys strong [] (weakNames labels))) :=
  keys_perm strong labels []

/-! ## Texts that are told apart -/

/-- Nothing among some labels is printed as something else is. -/
structure ToldApart (labels : List Label) : Prop where
  global : (globalNames labels).Nodup
  apart : ∀ name ∈ globalNames labels, name ∉ plainNames labels
  numbered : ∀ name number, 0 < number → number < (plainNames labels).count name →
    ∀ label ∈ labels, label.name ≠ .named (Ledger.suffixed name number)

theorem exists_named_iff {labels : List Label} {name : String} :
    (∃ label ∈ labels, label.name = .named name) ↔
      name ∈ globalNames labels ∨ name ∈ plainNames labels ∨ name ∈ weakNames labels := by
  have roles : ∀ label : Label, label.name = .named name ↔
      label.role.global? = some name ∨ label.role.plain? = some name ∨
        label.role.weak? = some name := by
    rintro ⟨name_is, isGlobal, isWeak, scope⟩
    cases name_is with
    | numeric slot => simp [Label.role, Role.global?, Role.plain?, Role.weak?]
    | named other =>
        cases isWeak <;> cases isGlobal <;> simp [Label.role, Role.global?, Role.plain?, Role.weak?]
  simp only [globalNames, plainNames, weakNames, List.mem_filterMap, roles]
  constructor
  · rintro ⟨label, member, role | role | role⟩
    · exact .inl ⟨label, member, role⟩
    · exact .inr (.inl ⟨label, member, role⟩)
    · exact .inr (.inr ⟨label, member, role⟩)
  · rintro (⟨label, member, role⟩ | ⟨label, member, role⟩ | ⟨label, member, role⟩)
    · exact ⟨label, member, .inl role⟩
    · exact ⟨label, member, .inr (.inl role)⟩
    · exact ⟨label, member, .inr (.inr role)⟩

section Keys

variable {strong : List String} {labels : List Label}
  (strong_iff : ∀ name, name ∈ strong ↔ name ∈ globalNames labels ∨ name ∈ plainNames labels)

include strong_iff

theorem mem_keys {name : String} {number : Nat} :
    (name, number) ∈ keys strong [] labels ↔
      number = 0 ∧ (∃ label ∈ labels, label.name = .named name) ∨
        number < (plainNames labels).count name := by
  have plain : name ∈ plainNames labels ↔ 0 < (plainNames labels).count name :=
    List.count_pos_iff.symm
  have global : (name, number) ∈ (globalNames labels).map (fun name => (name, 0)) ↔
      number = 0 ∧ name ∈ globalNames labels := by
    simp only [List.mem_map, Prod.mk.injEq]
    constructor
    · rintro ⟨_, held, rfl, rfl⟩
      exact ⟨rfl, held⟩
    · rintro ⟨rfl, held⟩
      exact ⟨name, held, rfl, rfl⟩
  rw [(keys_sorted strong labels).mem_iff, List.mem_append, List.mem_append, mem_plainKeys,
    mem_weakKeys, exists_named_iff, strong_iff, global, plain, List.count_nil]
  constructor
  · rintro (⟨zero, held⟩ | ⟨_, below⟩ | ⟨zero, held, _, _⟩)
    · exact .inl ⟨zero, .inl held⟩
    · exact .inr (by omega)
    · exact .inl ⟨zero, .inr (.inr held)⟩
  · rintro (⟨zero, held | held | held⟩ | below)
    · exact .inl ⟨zero, held⟩
    · exact .inr (.inl (by omega))
    · by_cases free : name ∈ globalNames labels ∨ 0 < (plainNames labels).count name
      · rcases free with held | positive
        · exact .inl ⟨zero, held⟩
        · exact .inr (.inl (by omega))
      · exact .inr (.inr ⟨zero, held, free, List.not_mem_nil⟩)
    · exact .inr (.inl (by omega))

/-- Every key is made from a label of its name. -/
theorem named_of_mem_keys {name : String} {number : Nat}
    (held : (name, number) ∈ keys strong [] labels) :
    ∃ label ∈ labels, label.name = .named name := by
  rcases (mem_keys strong_iff).mp held with ⟨_, named⟩ | below
  · exact named
  · exact exists_named_iff.mpr (.inr (.inl (List.count_pos_iff.mp (by omega))))

/-- Only a global name can make a key occur twice. -/
theorem keys_nodup_iff :
    (keys strong [] labels).Nodup ↔ (globalNames labels).Nodup ∧
      ∀ name ∈ globalNames labels, name ∉ plainNames labels := by
  have injective : Function.Injective (fun name : String => (name, 0)) :=
    fun first second same => congrArg Prod.fst same
  have plain : ∀ {name number}, (name, number) ∈ plainKeys [] (plainNames labels) →
      name ∈ plainNames labels := by
    intro name number held
    have below := ((mem_plainKeys _ _).mp held).2
    rw [List.count_nil] at below
    exact List.count_pos_iff.mp (by omega)
  rw [(keys_sorted strong labels).nodup_iff, List.nodup_append, List.nodup_map_iff injective]
  constructor
  · rintro ⟨unique, _, apart⟩
    refine ⟨unique, fun name held also_plain => ?_⟩
    have positive := List.count_pos_iff.mpr also_plain
    have numbered : (name, 0) ∈ plainKeys [] (plainNames labels) := by
      rw [mem_plainKeys, List.count_nil]
      omega
    exact apart (name, 0) (List.mem_map.mpr ⟨name, held, rfl⟩) (name, 0)
      (List.mem_append_left _ numbered) rfl
  · rintro ⟨unique, apart⟩
    refine ⟨unique, List.nodup_append.mpr ⟨plainKeys_nodup _ _, weakKeys_nodup _ _ _, ?_⟩, ?_⟩
    · rintro ⟨name, number⟩ held _ also_weak rfl
      have free := ((mem_weakKeys _ _).mp also_weak).2.2.1
      exact free ((strong_iff name).mpr (.inr (plain held)))
    · rintro ⟨name, number⟩ held _ other rfl
      obtain ⟨_, global, same⟩ := List.mem_map.mp held
      cases same
      rcases List.mem_append.mp other with also_plain | also_weak
      · exact apart name global (plain also_plain)
      · have free := ((mem_weakKeys _ _).mp also_weak).2.2.1
        exact free ((strong_iff name).mpr (.inl global))

/-- Labels are told apart by the texts of their keys exactly when nothing is printed as
something else is. -/
theorem keyTexts_nodup_iff :
    ((keys strong [] labels).map keyText).Nodup ↔ ToldApart labels := by
  constructor
  · intro unique
    obtain ⟨global, apart⟩ := (keys_nodup_iff strong_iff).mp unique.of_map
    refine ⟨global, apart, fun name number positive below label member named => ?_⟩
    have first := (mem_keys strong_iff).mpr (.inr below)
    have second := (mem_keys strong_iff).mpr (.inl ⟨rfl, label, member, named⟩)
    have same := List.inj_on_of_nodup_map unique first second rfl
    have zero : number = 0 := congrArg Prod.snd same
    omega
  · intro told_apart
    refine List.Nodup.map_on ?_
      ((keys_nodup_iff strong_iff).mpr ⟨told_apart.global, told_apart.apart⟩)
    -- a numbered text is not the name of a label, so it is not a text without a number
    have clash : ∀ {name number other}, 0 < number → (name, number) ∈ keys strong [] labels →
        (other, 0) ∈ keys strong [] labels → Ledger.suffixed name number ≠ other := by
      rintro name number _ positive held also_held rfl
      obtain ⟨label, member, named⟩ := named_of_mem_keys strong_iff also_held
      rcases (mem_keys strong_iff).mp held with ⟨zero, _⟩ | below
      · omega
      · exact told_apart.numbered name number positive below label member named
    rintro ⟨name, number⟩ held ⟨other, count⟩ also_held same
    simp only [keyText] at same
    rcases Nat.eq_zero_or_pos number with rfl | positive
    · rcases Nat.eq_zero_or_pos count with rfl | also_positive
      · exact congrArg (·, 0) same
      · exact absurd same.symm (clash also_positive also_held held)
    · rcases Nat.eq_zero_or_pos count with rfl | also_positive
      · exact absurd same (clash positive held also_held)
      · obtain ⟨rfl, rfl⟩ := Ledger.suffixed_inj positive also_positive same
        rfl

end Keys

/-! ## Finalized sequences -/

/-- The texts of the named labels of a sequence, in order. -/
def namedTexts (sequence : Sequence) : List String :=
  sequence.flatMap (fun line => line.labels.filterMap PlacedLabel.namedText?)

theorem mem_strongNames {calls : List Call} {name : String} :
    name ∈ strongNames calls ↔ name ∈ globalNames (calls.flatMap Call.labels) ∨
      name ∈ plainNames (calls.flatMap Call.labels) := by
  have roles : ∀ label : Label, label.strongName? = some name ↔
      label.role.global? = some name ∨ label.role.plain? = some name := by
    rintro ⟨name_is, isGlobal, isWeak, scope⟩
    cases name_is with
    | numeric slot => simp [Label.strongName?, Label.role, Role.global?, Role.plain?]
    | named other =>
        cases isWeak <;> cases isGlobal <;>
          simp [Label.strongName?, Label.role, Role.global?, Role.plain?]
  simp only [strongNames, globalNames, plainNames, List.mem_flatMap, List.mem_filterMap, roles]
  constructor
  · rintro ⟨call, listed, label, held, role | role⟩
    · exact .inl ⟨label, ⟨call, listed, held⟩, role⟩
    · exact .inr ⟨label, ⟨call, listed, held⟩, role⟩
  · rintro (⟨label, ⟨call, listed, held⟩, role⟩ | ⟨label, ⟨call, listed, held⟩, role⟩)
    · exact ⟨call, listed, label, held, .inl role⟩
    · exact ⟨call, listed, label, held, .inr role⟩

/-- The text is that of a named label of the line at this place. -/
def StandsOn (sequence : Sequence) (place : Nat) (text : String) : Prop :=
  ∃ line, sequence[place]? = some line ∧ text ∈ line.labels.filterMap PlacedLabel.namedText?

/-- A text that is on two lines is twice among the texts. -/
theorem one_line {sequence : Sequence} (unique : (namedTexts sequence).Nodup)
    {first second : Nat} {text : String} (here : StandsOn sequence first text)
    (there : StandsOn sequence second text) : first = second := by
  have apart := (List.nodup_flatMap.mp unique).2
  rw [List.pairwise_iff_getElem] at apart
  obtain ⟨line, found, held⟩ := here
  obtain ⟨other, also_found, also_held⟩ := there
  obtain ⟨within, rfl⟩ := List.getElem?_eq_some_iff.mp found
  obtain ⟨also_within, rfl⟩ := List.getElem?_eq_some_iff.mp also_found
  rcases Nat.lt_trichotomy first second with before | same | behind
  · exact absurd also_held (apart first second within also_within before held)
  · exact same
  · exact absurd held (apart second first also_within within behind also_held)

/-- What a named reference is bound to in its sequence stands on the line it is bound to. -/
theorem local?_stands {sequence : Sequence} {position place : Nat} {name : String}
    {scope : BlockId} {placed : PlacedLabel}
    (found : LabelIndex.local? sequence position (.named name scope) = some (place, placed)) :
    StandsOn sequence place placed.rendered := by
  obtain ⟨declared, seen⟩ := List.mem_filter.mp (LabelIndex.nearest_mem found)
  obtain ⟨line, there, held⟩ := LabelIndex.mem_declarations.mp declared
  have named : placed.label.name = .named name := by simpa using (Bool.and_eq_true_iff.mp seen).2
  refine ⟨line, there, List.mem_filterMap.mpr ⟨placed, held, ?_⟩⟩
  rw [PlacedLabel.namedText?, named]

/-- **When a sequence tells its labels apart.**  The named labels that are left in a finalized
stream all have different texts exactly when no name is declared global twice, none is both
global and local, and no text of a repeated local label is the name of another label.  Then a
text stands on one line only, and so does that of a reference that is bound in the sequence:
the line it is bound to. -/
theorem finalized_texts_nodup_iff (stream : Stream Call) (engine after : Engine)
    (sequence : Sequence) (run : finalize stream engine = (.ok sequence, after)) :
    ((namedTexts sequence).Nodup ↔ ToldApart (stream.emissions.flatMap Call.labels)) ∧
      (ToldApart (stream.emissions.flatMap Call.labels) → ∀ (text : String) (first second : Nat),
        StandsOn sequence first text → StandsOn sequence second text → first = second) ∧
      ∀ (position place : Nat) (name : String) (scope : BlockId) (placed : PlacedLabel),
        LabelIndex.local? sequence position (.named name scope) = some (place, placed) →
          StandsOn sequence place placed.rendered := by
  have texts : namedTexts sequence =
      (keys (strongNames stream.emissions) []
        (stream.emissions.flatMap Call.labels)).map keyText := by
    rw [← placeCalls_texts stream.emissions (follows_empty _), ← finalize_labels run,
      List.flatMap_map]
    rfl
  have told_apart_iff : (namedTexts sequence).Nodup ↔
      ToldApart (stream.emissions.flatMap Call.labels) := by
    rw [texts]
    exact keyTexts_nodup_iff (fun name => mem_strongNames)
  refine ⟨told_apart_iff, fun told_apart text first second here there => ?_, ?_⟩
  · exact one_line (told_apart_iff.mpr told_apart) here there
  · intro position place name scope placed found
    exact local?_stands found

/-- One call for each name, with a local label of that name. -/
def declaring (names : List String) : Stream Call :=
  Stream.ofUnits (names.map (fun name =>
    [{ name := "nop", labels := [{ name := .named name, scope := BlockId.root }] }]))

theorem finalized_texts_nodup_repeated :
    ∃ sequence after,
      finalize (declaring ["a", "a", "b"]) (Engine.ofSeed 1) = (.ok sequence, after) ∧
      namedTexts sequence = ["a", "a_1", "b"] ∧
      ToldApart ((declaring ["a", "a", "b"]).emissions.flatMap Call.labels) := by
  refine ⟨_, _, rfl, rfl, ?_⟩
  exact (finalized_texts_nodup_iff (declaring ["a", "a", "b"]) (Engine.ofSeed 1) _ _ rfl).1.mp
    (by decide)

/-- The text of a repeated label can be the name of another one. -/
theorem numbered_text_clash :
    ∃ sequence after,
      finalize (declaring ["a", "a", "a_1"]) (Engine.ofSeed 1) = (.ok sequence, after) ∧
      namedTexts sequence = ["a", "a_1", "a_1"] ∧ ¬ (namedTexts sequence).Nodup :=
  ⟨_, _, rfl, rfl, by decide⟩

end LabelNames
end TestProgram
