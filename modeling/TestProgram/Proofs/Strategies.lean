/-
# TestProgram.Proofs.Strategies -- what each kind of strategy may do, and that built-ins do no more

A strategy of each kind has one contract, whatever it draws:

* a combinator takes one alternative of every child for each combination (`Chooses`);
* a permutator permutes (`Permutes`);
* a compositor interleaves the units of its streams (`Interleaves`);
* a rearranger neither loses, doubles nor splits a unit (`Regroups`);
* an obfuscator leaves a stream as it is (`Leaves`), which holds of the built-in one.

A registry is `Lawful` when all its entries keep their contracts, and that of a new
session is (`builtins_lawful`).
-/
import TestProgram.Proofs.Draw
import TestProgram.Proofs.Interleaving

namespace TestProgram.Strategy

set_option autoImplicit false

variable {α β : Type}

/-! ## Contracts -/

def Chooses (combine : Combinator α) : Prop :=
  ∀ children, Draw.Always (combine children) (fun combinations =>
    ∀ combination ∈ combinations, List.Forall₂ (· ∈ ·) combination children)

def Permutes (permute : Permutator α) : Prop :=
  ∀ streams, Draw.Always (permute streams) (·.Perm streams)

def Interleaves (compose : Compositor α) : Prop :=
  ∀ streams, Draw.Always (compose streams) (fun stream =>
    Interleaving (streams.map Stream.units) stream.units)

def Regroups (rearrange : Rearranger α) : Prop :=
  ∀ streams, Draw.Always (rearrange streams) (fun made =>
    (made.flatMap Stream.units).Perm (streams.flatMap Stream.units))

def Leaves (obfuscate : Obfuscator α) : Prop :=
  ∀ stream, Draw.Always (obfuscate stream) (· = stream)

/-! ## Combinators -/

theorem choices?_eq_some {children : List (List β)} {choices : List (Choices β)}
    (some_each : choices? children = some choices) :
    children = choices.map (fun choice => choice.1 :: choice.2) := by
  induction children generalizing choices with
  | nil =>
      simp only [choices?, List.mapM_nil, Option.pure_def, Option.some.injEq] at some_each
      subst some_each
      rfl
  | cons child rest ih =>
      cases child with
      | nil => simp [choices?] at some_each
      | cons first others =>
          simp only [choices?, List.mapM_cons, Option.bind_eq_bind, Option.bind_some,
            Option.bind_eq_some_iff, Option.pure_def, Option.some.injEq] at some_each
          obtain ⟨later, found, rfl⟩ := some_each
          simp [← ih found]

theorem get_mem (choices : Choices β) (index : Nat) :
    Choices.get choices index ∈ choices.1 :: choices.2 := by
  unfold Choices.get
  rw [List.getD_eq_getElem?_getD]
  cases found : (choices.1 :: choices.2)[index]? with
  | none => simp
  | some item => exact List.mem_of_getElem? found

theorem lockstep_mem (choices : List (Choices β)) (index : Nat) :
    List.Forall₂ (· ∈ ·) (lockstep choices index)
      (choices.map (fun choice => choice.1 :: choice.2)) := by
  rw [lockstep, List.forall₂_map_left_iff, List.forall₂_map_right_iff, List.forall₂_same]
  exact fun choice _ => get_mem choice _

theorem diagonal_chooses : Chooses (diagonal : Combinator α) := by
  intro children
  unfold diagonal
  split
  · exact Draw.always_pure (by simp)
  · rename_i choices found
    refine Draw.always_pure (fun combination member => ?_)
    obtain ⟨index, _, rfl⟩ := List.mem_map.mp member
    rw [choices?_eq_some found]
    exact lockstep_mem choices index

theorem products_mem : ∀ (children : List (List β)), ∀ combination ∈ products children,
    List.Forall₂ (· ∈ ·) combination children
  | [], combination, member => by
      rw [products, List.mem_singleton] at member
      subst member
      exact .nil
  | alternatives :: rest, combination, member => by
      obtain ⟨alternative, chosen, further⟩ := List.mem_flatMap.mp member
      obtain ⟨others, made, rfl⟩ := List.mem_map.mp further
      exact .cons chosen (products_mem rest others made)

theorem product_chooses : Chooses (product : Combinator α) :=
  fun children => Draw.always_pure (products_mem children)

theorem drawChoice_mem (choices : Choices β) :
    Draw.Always (drawChoice choices) (fun item => item ∈ choices.1 :: choices.2) :=
  Draw.always_bind (Draw.uniform_le _) (fun index _ => Draw.always_pure (get_mem choices index))

theorem drawCombinations_mem (choices : List (Choices β)) (count : Nat) :
    Draw.Always (drawCombinations choices count) (fun combinations =>
      ∀ combination ∈ combinations,
        List.Forall₂ (· ∈ ·) combination (choices.map (fun choice => choice.1 :: choice.2))) := by
  induction count with
  | zero => exact Draw.always_pure (by simp)
  | succ count ih =>
      refine Draw.always_bind (Draw.always_mapM (fun choice _ => drawChoice_mem choice)) ?_
      intro first here
      refine Draw.always_bind ih (fun rest there => Draw.always_pure ?_)
      rw [List.forall_mem_cons]
      exact ⟨List.forall₂_map_right_iff.mpr here.flip, there⟩

theorem randomCombinator_chooses : Chooses (randomCombinator : Combinator α) := by
  intro children
  unfold randomCombinator
  split
  · exact Draw.always_pure (by simp)
  · rename_i choices found
    rw [choices?_eq_some found]
    exact drawCombinations_mem choices _

/-! ## Permutators, rearrangers and obfuscators -/

theorem identity_permutes : Permutes (identity : Permutator α) :=
  fun streams => Draw.always_pure (.refl streams)

theorem shuffle_permutes : Permutes (Draw.shuffle : Permutator α) :=
  fun streams => Draw.shuffle_perm streams

/-- What only changes the order of the streams keeps their units together. -/
theorem Permutes.regroups {permute : Permutator α} (permutes : Permutes permute) :
    Regroups permute :=
  fun streams => (permutes streams).mono (fun _ same => same.flatMap_right Stream.units)

theorem joining_regroups : Regroups (joining : Rearranger α) := by
  refine fun streams => Draw.always_pure ?_
  unfold joined
  split
  · rename_i empty
    rw [List.isEmpty_iff.mp empty]
  · simp [Stream.concat, List.flatMap_def]

theorem identity_leaves : Leaves (identity : Obfuscator α) :=
  fun _ => Draw.always_pure rfl

/-! ## Compositors -/

/-- No unit is left out when an interleaving of streams is made a stream. -/
theorem units_ofUnits {streams : List (Stream α)} {merged : List (List α)}
    (made : Interleaving (streams.map Stream.units) merged) :
    (Stream.ofUnits merged).units = merged := by
  refine List.filter_eq_self.mpr (fun unit member => ?_)
  obtain ⟨list, source, inside⟩ := made.mem member
  obtain ⟨stream, _, rfl⟩ := List.mem_map.mp source
  simpa using stream.filled unit inside

theorem ofUnits_interleaves {streams : List (Stream α)} {merged : List (List α)}
    (made : Interleaving (streams.map Stream.units) merged) :
    Interleaving (streams.map Stream.units) (Stream.ofUnits merged).units := by
  rw [units_ofUnits made]
  exact made

theorem catenation_interleaves : Interleaves (catenation : Compositor α) :=
  fun _ => Draw.always_pure (Interleaving.flatten _)

theorem rotation_interleaves : Interleaves (rotation : Compositor α) :=
  fun _ => Draw.always_pure (ofUnits_interleaves (Interleaving.columns _))

theorem nesting_interleaves : Interleaves (nesting : Compositor α) := by
  intro streams
  induction streams with
  | nil => exact Draw.always_pure (.done (by simp))
  | cons outer rest ih =>
      refine Draw.always_bind ih (fun inner inside => ?_)
      refine Draw.always_bind (Draw.uniform_le _) (fun place _ => Draw.always_pure ?_)
      have made : Interleaving ((outer :: rest).map Stream.units)
          (splice outer.units place inner.units) := inside.splice outer.units place
      exact ofUnits_interleaves made

/-- Each number drawn below the count of items left takes the first item of some list. -/
theorem interleave_interleaves (left : Nat) : ∀ lists : List (List β),
    Interleaving.size lists = left → Draw.Always (interleave left lists) (Interleaving lists) := by
  induction left with
  | zero =>
      intro lists counted
      exact Draw.always_pure (Interleaving.of_size_zero lists counted)
  | succ left ih =>
      intro lists counted
      refine Draw.always_bind (Draw.uniform_le left) (fun pick below => ?_)
      obtain ⟨before, item, rest, after, rfl, taken⟩ :=
        Interleaving.takeFirst_step lists pick (by omega)
      rw [taken]
      rw [Interleaving.size_step] at counted
      refine Draw.always_bind (ih _ (by omega)) (fun others made => Draw.always_pure ?_)
      exact .step before after made

theorem randomCompositor_interleaves : Interleaves (randomCompositor : Compositor α) :=
  fun _ => Draw.always_bind (interleave_interleaves _ _ rfl)
    (fun _ made => Draw.always_pure (ofUnits_interleaves made))

/-! ## Registries -/

/-- Every entry of the registry keeps the contract of its kind. -/
structure Lawful (registry : Registry α) : Prop where
  combinators : ∀ entry ∈ registry.combinators, Chooses entry.2
  permutators : ∀ entry ∈ registry.permutators, Permutes entry.2
  compositors : ∀ entry ∈ registry.compositors, Interleaves entry.2
  rearrangers : ∀ entry ∈ registry.rearrangers, Regroups entry.2
  obfuscators : ∀ entry ∈ registry.obfuscators, Leaves entry.2

theorem builtins_lawful : Lawful (builtins : Registry α) where
  combinators entry member := by
    have listed := KeyMap.mem_ofList member
    simp only [List.mem_cons, List.not_mem_nil, or_false] at listed
    rcases listed with rfl | rfl | rfl
    · exact diagonal_chooses
    · exact product_chooses
    · exact randomCombinator_chooses
  permutators entry member := by
    have listed := KeyMap.mem_ofList member
    simp only [List.mem_cons, List.not_mem_nil, or_false] at listed
    rcases listed with rfl | rfl
    · exact identity_permutes
    · exact shuffle_permutes
  compositors entry member := by
    have listed := KeyMap.mem_ofList member
    simp only [List.mem_cons, List.not_mem_nil, or_false] at listed
    rcases listed with rfl | rfl | rfl | rfl
    · exact catenation_interleaves
    · exact rotation_interleaves
    · exact nesting_interleaves
    · exact randomCompositor_interleaves
  rearrangers entry member := by
    have listed := KeyMap.mem_ofList member
    simp only [List.mem_cons, List.not_mem_nil, or_false] at listed
    rcases listed with rfl | rfl | rfl
    · exact identity_permutes.regroups
    · exact joining_regroups
    · exact shuffle_permutes.regroups
  obfuscators entry member := by
    have listed := KeyMap.mem_ofList member
    simp only [List.mem_cons, List.not_mem_nil, or_false] at listed
    subst listed
    exact identity_leaves

end TestProgram.Strategy
