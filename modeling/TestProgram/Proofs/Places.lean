/-
# TestProgram.Proofs.Places -- where in a tree a call stands

A place is the path of child numbers that leads to a node of a tree (`Tree.node?`).
`Tree.traced` puts its place beside every call, so that an emission made from a traced tree
tells which call it comes from, also where two calls are equal.  A traced call tells the
truth (`mem_calls_tracedFrom`), and with the places left out again the tree is as it was
(`map_traced`).  No two calls stand at one place (`nodup_places`).

The places of a tree that matter to composition are its outermost atomic blocks: of two
that enclose one node there is only one (`Outermost.unique`).
-/
import TestProgram.Tree

namespace TestProgram.Tree

set_option autoImplicit false

variable {α : Type}

/-! ## Nodes by their places -/

/-- What holds of a tree when it holds of all children of it holds of every tree. -/
theorem induction {P : Tree α → Prop} (leaf : ∀ call, P (.leaf call))
    (block : ∀ info children, (∀ child ∈ children, P child) → P (.block info children)) :
    ∀ tree, P tree
  | .leaf call => leaf call
  | .block info children => block info children (fun child _ => induction leaf block child)

def node? : Tree α → List Nat → Option (Tree α)
  | tree, [] => some tree
  | .leaf _, _ :: _ => none
  | .block _ children, number :: rest => (children[number]?).bind (fun child => child.node? rest)

theorem node?_append (tree : Tree α) (outer inner : List Nat) :
    tree.node? (outer ++ inner) = (tree.node? outer).bind (fun node => node.node? inner) := by
  induction outer generalizing tree with
  | nil => rfl
  | cons number rest ih =>
      cases tree with
      | leaf call => rfl
      | block info children =>
          simp only [List.cons_append, node?]
          cases children[number]? with
          | none => rfl
          | some child => exact ih child

theorem node?_cons_iff {info : BlockInfo} {children : List (Tree α)} {number : Nat}
    {rest : List Nat} {node : Tree α} :
    (Tree.block info children).node? (number :: rest) = some node ↔
      ∃ child, children[number]? = some child ∧ child.node? rest = some node :=
  Option.bind_eq_some_iff

/-- The children of a node stand one step below it. -/
theorem node?_child {tree : Tree α} {place : List Nat} {info : BlockInfo}
    {children : List (Tree α)} (here : tree.node? place = some (.block info children))
    {number : Nat} {child : Tree α} (found : children[number]? = some child) :
    tree.node? (place ++ [number]) = some child := by
  rw [node?_append, here]
  simp [node?, found]

theorem getElem?_mapAll {β : Type} (f : α → β) (children : List (Tree α)) :
    ∀ number : Nat, (mapAll f children)[number]? = (children[number]?).map (map f) := by
  induction children with
  | nil => intro number; rfl
  | cons child rest ih =>
      intro number
      cases number with
      | zero => rfl
      | succ number => simpa [mapAll] using ih number

theorem take_mapAll {β : Type} (f : α → β) (children : List (Tree α)) :
    ∀ number : Nat, (mapAll f children).take number = mapAll f (children.take number) := by
  induction children with
  | nil => intro number; cases number <;> rfl
  | cons child rest ih =>
      intro number
      cases number with
      | zero => rfl
      | succ number => simpa [mapAll] using ih number

/-! ## Atomic blocks -/

def AtomicAt (tree : Tree α) (place : List Nat) : Prop :=
  ∃ info children, tree.node? place = some (.block info children) ∧ info.kind = .atomic

/-- An atomic block that stands in no other one. -/
def Outermost (tree : Tree α) (place : List Nat) : Prop :=
  tree.AtomicAt place ∧ ∀ outer, outer <+: place → tree.AtomicAt outer → outer = place

/-- A node that stands in an atomic block. -/
def Inside (tree : Tree α) (place : List Nat) : Prop :=
  ∃ outer, tree.AtomicAt outer ∧ outer <+: place ∧ outer ≠ place

/-- One node stands in at most one outermost atomic block. -/
theorem Outermost.unique {tree : Tree α} {first second place : List Nat}
    (here : tree.Outermost first) (there : tree.Outermost second)
    (encloses : first <+: place) (also_encloses : second <+: place) : first = second := by
  rcases List.prefix_or_prefix_of_prefix encloses also_encloses with inner | outer
  · exact there.2 first inner here.1
  · exact (here.2 second outer there.1).symm

theorem outermost_of_not_inside {tree : Tree α} {place : List Nat} (atomic : tree.AtomicAt place)
    (outside : ¬ tree.Inside place) : tree.Outermost place := by
  refine ⟨atomic, fun outer encloses also_atomic => ?_⟩
  by_cases same : outer = place
  · exact same
  · exact absurd ⟨outer, also_atomic, encloses, same⟩ outside

/-- The children of a block that is not atomic stand in no atomic block if it does not. -/
theorem not_inside_child {tree : Tree α} {place : List Nat} (divisible : ¬ tree.AtomicAt place)
    (outside : ¬ tree.Inside place) (number : Nat) : ¬ tree.Inside (place ++ [number]) := by
  rintro ⟨outer, atomic, encloses, ne⟩
  rcases List.prefix_concat_iff.mp encloses with same | shorter
  · exact ne same
  · by_cases here : outer = place
    · exact divisible (here ▸ atomic)
    · exact outside ⟨outer, atomic, shorter, here⟩

/-! ## Calls with their places -/

mutual

def tracedFrom (place : List Nat) : Tree α → Tree (List Nat × α)
  | .leaf call => .leaf (place, call)
  | .block info children => .block info (tracedAll place 0 children)

/-- The children of the block at a place, from one number on. -/
def tracedAll (place : List Nat) (number : Nat) : List (Tree α) → List (Tree (List Nat × α))
  | [] => []
  | child :: rest => tracedFrom (place ++ [number]) child :: tracedAll place (number + 1) rest

end

/-- The tree with its place beside every call. -/
def traced (tree : Tree α) : Tree (List Nat × α) :=
  tree.tracedFrom []

mutual

theorem map_tracedFrom (place : List Nat) : ∀ tree : Tree α,
    (tree.tracedFrom place).map Prod.snd = tree
  | .leaf call => rfl
  | .block info children => by rw [tracedFrom, map, map_tracedAll place 0 children]

theorem map_tracedAll (place : List Nat) (number : Nat) : ∀ children : List (Tree α),
    mapAll Prod.snd (tracedAll place number children) = children
  | [] => rfl
  | child :: rest => by
      rw [tracedAll, mapAll, map_tracedFrom _ child, map_tracedAll place _ rest]

end

theorem map_traced (tree : Tree α) : tree.traced.map Prod.snd = tree :=
  map_tracedFrom [] tree

theorem length_tracedAll (place : List Nat) (children : List (Tree α)) :
    ∀ number, (tracedAll place number children).length = children.length := by
  induction children with
  | nil => exact fun _ => rfl
  | cons child rest ih => exact fun number => congrArg (· + 1) (ih (number + 1))

theorem getElem?_tracedAll (place : List Nat) (children : List (Tree α)) :
    ∀ first number, (tracedAll place first children)[number]? =
      (children[number]?).map (tracedFrom (place ++ [first + number])) := by
  induction children with
  | nil => intro first number; rfl
  | cons child rest ih =>
      intro first number
      cases number with
      | zero => rfl
      | succ number =>
          rw [tracedAll, List.getElem?_cons_succ, List.getElem?_cons_succ, ih]
          rw [show first + 1 + number = first + (number + 1) by omega]

/-- Tracing keeps every node at its place. -/
theorem node?_tracedFrom (tree : Tree α) (base place : List Nat) :
    (tree.tracedFrom base).node? place =
      (tree.node? place).map (tracedFrom (base ++ place)) := by
  induction place generalizing tree base with
  | nil => simp [node?]
  | cons number rest ih =>
      cases tree with
      | leaf call => rfl
      | block info children =>
          simp only [tracedFrom, node?, getElem?_tracedAll, Nat.zero_add]
          cases children[number]? with
          | none => rfl
          | some child => simpa using ih child (base ++ [number])

theorem mem_callsOf {children : List (Tree α)} {call : α} (member : call ∈ callsOf children) :
    ∃ (number : Nat) (child : Tree α), children[number]? = some child ∧ call ∈ child.calls := by
  induction children with
  | nil => cases member
  | cons child rest ih =>
      rw [callsOf] at member
      rcases List.mem_append.mp member with here | later
      · exact ⟨0, child, rfl, here⟩
      · obtain ⟨number, other, found, inside⟩ := ih later
        exact ⟨number + 1, other, by simpa using found, inside⟩

theorem mem_callsOf_of_mem {children : List (Tree α)} {child : Tree α} {call : α}
    (listed : child ∈ children) (inside : call ∈ child.calls) : call ∈ callsOf children := by
  induction children with
  | nil => cases listed
  | cons first rest ih =>
      rw [callsOf]
      rcases List.mem_cons.mp listed with rfl | later
      · exact List.mem_append_left _ inside
      · exact List.mem_append_right _ (ih later)

/-- A traced call is the leaf at the place beside it. -/
theorem mem_calls_tracedFrom (tree : Tree α) : ∀ {place : List Nat} {emission : List Nat × α},
    emission ∈ (tree.tracedFrom place).calls →
      ∃ rest, emission.1 = place ++ rest ∧ tree.node? rest = some (.leaf emission.2) := by
  induction tree using Tree.induction with
  | leaf call =>
      intro place emission member
      rw [tracedFrom, calls, List.mem_singleton] at member
      subst member
      exact ⟨[], (List.append_nil place).symm, rfl⟩
  | block info children ih =>
      intro place emission member
      rw [tracedFrom, calls] at member
      obtain ⟨number, child, found, inside⟩ := mem_callsOf member
      rw [getElem?_tracedAll, Nat.zero_add, Option.map_eq_some_iff] at found
      obtain ⟨untraced, listed, rfl⟩ := found
      obtain ⟨rest, path, leaf⟩ := ih untraced (List.mem_of_getElem? listed) inside
      refine ⟨number :: rest, by simpa using path, ?_⟩
      simpa [node?, listed] using leaf

/-! ## Calls of a changed tree -/

mutual

theorem calls_map {β : Type} (f : α → β) : ∀ tree : Tree α, (tree.map f).calls = tree.calls.map f
  | .leaf call => rfl
  | .block info children => by rw [map, calls, calls, callsOf_mapAll f children]

theorem callsOf_mapAll {β : Type} (f : α → β) : ∀ children : List (Tree α),
    callsOf (mapAll f children) = (callsOf children).map f
  | [] => rfl
  | child :: rest => by
      rw [mapAll, callsOf, callsOf, calls_map f child, callsOf_mapAll f rest, List.map_append]

end

theorem callsOf_append (first second : List (Tree α)) :
    callsOf (first ++ second) = callsOf first ++ callsOf second := by
  induction first with
  | nil => rfl
  | cons child rest ih => rw [List.cons_append, callsOf, callsOf, ih, List.append_assoc]

theorem mapAll_append {β : Type} (f : α → β) (first second : List (Tree α)) :
    mapAll f (first ++ second) = mapAll f first ++ mapAll f second := by
  induction first with
  | nil => rfl
  | cons child rest ih => rw [List.cons_append, mapAll, mapAll, ih, List.cons_append]

theorem calls_traced (tree : Tree α) : tree.traced.calls.map Prod.snd = tree.calls := by
  rw [← calls_map, map_traced]

/-- No two calls stand at one place. -/
theorem nodup_places (tree : Tree α) :
    ∀ place : List Nat, ((tree.tracedFrom place).calls.map Prod.fst).Nodup := by
  induction tree using Tree.induction with
  | leaf call => simp [tracedFrom, calls]
  | block info children ih =>
      intro place
      rw [tracedFrom, calls]
      generalize 0 = number
      induction children generalizing number with
      | nil => simp [tracedAll, callsOf]
      | cons child rest later =>
          have here := ih child (by simp) (place ++ [number])
          have there := later (fun other member => ih other (by simp [member])) (number + 1)
          rw [tracedAll, callsOf, List.map_append, List.nodup_append]
          refine ⟨here, there, ?_⟩
          rintro _ first _ second rfl
          obtain ⟨call, member, same⟩ := List.mem_map.mp first
          obtain ⟨other, also_member, also_same⟩ := List.mem_map.mp second
          obtain ⟨inner, path, _⟩ := mem_calls_tracedFrom child member
          obtain ⟨offset, traced, found, inside⟩ := mem_callsOf also_member
          rw [getElem?_tracedAll, Option.map_eq_some_iff] at found
          obtain ⟨untraced, _, rfl⟩ := found
          obtain ⟨further, also_path, _⟩ := mem_calls_tracedFrom untraced inside
          -- the two calls are below children of different numbers
          rw [← same, path, also_path] at also_same
          simp only [List.append_assoc, List.append_cancel_left_eq, List.singleton_append,
            List.cons.injEq] at also_same
          omega

theorem nodup_calls_traced (tree : Tree α) : tree.traced.calls.Nodup :=
  List.Pairwise.of_map Prod.fst (fun _ _ differ same => differ (congrArg Prod.fst same))
    (nodup_places tree [])

/-! ## Conditions on blocks -/

/-- Every block of the tree is of this sort. -/
def EachBlock (P : BlockInfo → Prop) (tree : Tree α) : Prop :=
  ∀ place info children, tree.node? place = some (.block info children) → P info

section EachBlock

variable {P : BlockInfo → Prop} {tree : Tree α} {info : BlockInfo} {children : List (Tree α)}

theorem EachBlock.here (each : EachBlock P (.block info children)) : P info :=
  each [] info children rfl

theorem EachBlock.child (each : EachBlock P (.block info children)) :
    ∀ child ∈ children, child.EachBlock P := by
  intro child member place inner below found
  obtain ⟨number, listed⟩ := List.mem_iff_getElem?.mp member
  exact each (number :: place) inner below (node?_cons_iff.mpr ⟨child, listed, found⟩)

@[simp] theorem eachBlock_leaf (call : α) : EachBlock P (.leaf call) := by
  intro place info children found
  cases place <;> cases found

@[simp] theorem eachBlock_block :
    EachBlock P (.block info children) ↔ P info ∧ ∀ child ∈ children, child.EachBlock P := by
  refine ⟨fun each => ⟨each.here, each.child⟩, fun ⟨here, below⟩ place inner nodes found => ?_⟩
  cases place with
  | nil =>
      cases found
      exact here
  | cons number rest =>
      obtain ⟨child, listed, found⟩ := node?_cons_iff.mp found
      exact below child (List.mem_of_getElem? listed) rest inner nodes found

theorem EachBlock.traced (each : tree.EachBlock P) : tree.traced.EachBlock P := by
  intro place inner below found
  rw [Tree.traced, node?_tracedFrom, Option.map_eq_some_iff] at found
  obtain ⟨node, here, traced⟩ := found
  cases node with
  | leaf call => cases traced
  | block info children =>
      cases traced
      exact each place _ _ here

end EachBlock

end TestProgram.Tree
