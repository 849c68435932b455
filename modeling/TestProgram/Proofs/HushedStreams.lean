/-
# TestProgram.Proofs.HushedStreams -- what texts and comments leave in the sequences

A placeholder that carries texts and comments only is a call like any other to composition.
Whether it makes a difference depends on what is taken of the streams where it stands
(`Grain`): what they emit only, how many there are, or how they are cut into units.  A sequence
takes what its children emit; a free block takes their streams, and if it does not catenate
them, their units; an iterate block hands on what is taken of its own.  `Tree.clear` goes down a
tree with this and looks for placeholders that are counted.

A tree without such placeholders expands to the same streams but for the others, from the same
draws (`Expansion.expand_hushed`): composition keeps streams alike in what is taken of them
(`composition_alike`, `finishing_alike`).  Placeholders draw nothing and take no label, so the
instructions are the same but for them too (`finalize_inStep`).
-/
import TestProgram.Proofs.Finalization
import TestProgram.Proofs.HushedSessions
import TestProgram.Proofs.Likeness

namespace TestProgram

set_option autoImplicit false

open Strategy (Agree builtins)
open TestProgram.Computation

/-! ## Calls -/

/-- The second list of calls is the first without texts and comments, and without some of the
placeholders that carry nothing else. -/
abbrev ThinnedCalls : List Bool → List Call → List Call → Prop :=
  Thinned (fun call other => other = call.hushed) Call.isBare

/-! ## Streams -/

/-- Streams that emit the same but for placeholders that carry texts and comments only. -/
def Thins (streams others : List (Stream Call)) : Prop :=
  ∃ kept, ThinnedCalls kept (streams.flatMap Stream.emissions)
    (others.flatMap Stream.emissions)

/-- A stream that emits the same but for such placeholders. -/
def Stream.Follows (stream other : Stream Call) : Prop :=
  ∃ kept, ThinnedCalls kept stream.emissions other.emissions

/-- A unit with the same calls but for such placeholders, of which something is left. -/
def UnitFollows (unit other : List Call) : Prop :=
  other ≠ [] ∧ ∃ kept, ThinnedCalls kept unit other

/-- What makes a difference of the streams of a tree where it stands: what they emit only, how
many there are too, or even how they are cut into units. -/
inductive Grain
  | emissions | streams | units
deriving DecidableEq, Repr

namespace Grain

def Alike : Grain → List (Stream Call) → List (Stream Call) → Prop
  | .emissions => Thins
  | .streams => List.Forall₂ Stream.Follows
  | .units => List.Forall₂ (Strategy.UnitsAlike UnitFollows)

def rank : Grain → Nat
  | .emissions => 0
  | .streams => 1
  | .units => 2

end Grain

theorem Thins.append {streams others later behind : List (Stream Call)}
    (first : Thins streams others) (second : Thins later behind) :
    Thins (streams ++ later) (others ++ behind) := by
  obtain ⟨kept, thinned⟩ := first
  obtain ⟨rest, thinned_later⟩ := second
  refine ⟨kept ++ rest, ?_⟩
  rw [List.flatMap_append, List.flatMap_append]
  exact thinned.append thinned_later

theorem Thins.concat {streams others : List (Stream Call)} (thins : Thins streams others) :
    (Stream.concat streams).Follows (Stream.concat others) := by
  obtain ⟨kept, thinned⟩ := thins
  exact ⟨kept, by rwa [Stream.emissions_concat, Stream.emissions_concat]⟩

theorem Stream.Follows.thins {stream other : Stream Call} (follows : stream.Follows other) :
    Thins [stream] [other] := by
  obtain ⟨kept, thinned⟩ := follows
  exact ⟨kept, by simpa using thinned⟩

/-- A stream with nothing but placeholders that carry texts and comments. -/
def Stream.bare (stream : Stream Call) : Bool :=
  stream.emissions.all Call.isBare

theorem Stream.bare_thins {stream : Stream Call} (bare : stream.bare = true) :
    Thins [stream] [] := by
  refine ⟨_, Thinned.of_bare ?_⟩
  simpa [Stream.bare] using bare

theorem thins_of_thinned {kept : List Bool} {streams others : List (Stream Call)}
    (thinned : Thinned Stream.Follows Stream.bare kept streams others) : Thins streams others := by
  induction thinned with
  | nil => exact ⟨[], .nil⟩
  | keep here _ ih => exact here.thins.append ih
  | drop left_out _ ih => exact (Stream.bare_thins left_out).append ih

theorem thins_of_follows {streams others : List (Stream Call)}
    (paired : List.Forall₂ Stream.Follows streams others) : Thins streams others :=
  thins_of_thinned (Thinned.of_paired paired)

theorem UnitFollows.isEmpty {unit other : List Call} (follows : UnitFollows unit other) :
    unit.isEmpty = other.isEmpty := by
  obtain ⟨some, kept, thinned⟩ := follows
  cases thinned with
  | nil => rfl
  | keep _ _ => rfl
  | drop _ _ => rw [List.isEmpty_eq_false_iff.mpr some]; rfl

theorem follows_of_units {stream other : Stream Call}
    (alike : Strategy.UnitsAlike UnitFollows stream other) : stream.Follows other := by
  have flat : ∀ {units others : List (List Call)}, List.Forall₂ UnitFollows units others →
      ∃ kept, ThinnedCalls kept units.flatten others.flatten := by
    intro units others paired
    induction paired with
    | nil => exact ⟨[], .nil⟩
    | cons here _ ih =>
        obtain ⟨_, kept, thinned⟩ := here
        obtain ⟨rest, thinned_later⟩ := ih
        exact ⟨kept ++ rest, thinned.append thinned_later⟩
  exact flat alike

/-- What is alike in more respects is alike in fewer. -/
theorem Grain.Alike.coarser {fine coarse : Grain} (below : coarse.rank ≤ fine.rank)
    {streams others : List (Stream Call)} (alike : fine.Alike streams others) :
    coarse.Alike streams others := by
  have streams_of_units : ∀ {streams others : List (Stream Call)},
      Grain.units.Alike streams others → Grain.streams.Alike streams others :=
    fun units => units.imp (fun _ _ => follows_of_units)
  cases fine <;> cases coarse <;>
    first
    | exact alike
    | exact thins_of_follows alike
    | exact streams_of_units alike
    | exact thins_of_follows (streams_of_units alike)
    | exact absurd below (by decide)

/-! ## Trees -/

/-- A placeholder that carries texts and comments only. -/
def Tree.isBare : Tree Call → Bool
  | .leaf call => call.isBare
  | .block _ _ => false

/-- A call that is more than that. -/
def Tree.isSpoken : Tree Call → Bool
  | .leaf call => !call.isBare
  | .block _ _ => false

namespace BlockInfo

/-- Whether the streams of a combination are put one after another. -/
def catenates (info : BlockInfo) : Bool :=
  info.strategies.compositor.getD StrategyOption.compositor.default == "catenation"

/-- What makes a difference of the streams of the children, given what does of the block's. -/
def inner (info : BlockInfo) (grain : Grain) (children : List (Tree Call)) : Grain :=
  match info.kind with
  | .sequence => if grain = .units then .units else .emissions
  | .atomic => if grain = .units && !children.any Tree.isSpoken then .units else .emissions
  | .iterate =>
      if info.strategies.rearranger = some "random" && grain = .emissions then .streams else grain
  | .free => if info.catenates && grain != .units then .streams else .units

/-- Whether a placeholder among the children makes no difference: where only what they emit
does, and in a free block whose combinations are counted and catenated, next to another
child. -/
def admits (info : BlockInfo) (grain : Grain) (children : List (Tree Call)) : Bool :=
  match info.kind with
  | .free =>
      info.catenates && grain != .units && info.strategies.combinator != some "random" &&
        info.strategies.permutator != some "random" && children.any (fun child => !child.isBare)
  | _ => info.inner grain children == .emissions

/-- What the streams of the block have in common then. -/
def made (info : BlockInfo) (grain : Grain) (children : List (Tree Call)) : Grain :=
  match info.kind with
  | .sequence | .atomic => if grain = .units then .units else .streams
  | .iterate | .free => info.inner grain children

/-- Streams that are rearranged at random are counted. -/
theorem settled (info : BlockInfo) (grain : Grain) (children : List (Tree Call)) :
    info.made grain children ≠ .emissions ∨ info.strategies.rearranger ≠ some "random" := by
  cases kind : info.kind with
  | iterate =>
      by_cases random : info.strategies.rearranger = some "random"
      · cases grain <;> simp [made, inner, kind, random]
      · exact .inr random
  | free =>
      refine .inl ?_
      simp only [made, inner, kind]
      split <;> simp
  | _ =>
      refine .inl ?_
      simp only [made, kind]
      split <;> simp

theorem rank_made (info : BlockInfo) (grain : Grain) (children : List (Tree Call)) :
    grain.rank ≤ (info.made grain children).rank := by
  cases kind : info.kind with
  | iterate =>
      simp only [made, inner, kind]
      split <;> cases grain <;> simp_all [Grain.rank]
  | free =>
      simp only [made, inner, kind]
      by_cases catenates : info.catenates = true <;> cases grain <;> simp [catenates, Grain.rank]
  | _ => cases grain <;> simp [made, kind, Grain.rank]

end BlockInfo

mutual

/-- Whether no placeholder that carries texts and comments only makes a difference. -/
def Tree.clear (grain : Grain) : Tree Call → Bool
  | .leaf _ => true
  | .block info children =>
      (children.all (fun child => !child.isBare) || info.admits grain children) &&
        Tree.allClear (info.inner grain children) children

def Tree.allClear (grain : Grain) : List (Tree Call) → Bool
  | [] => true
  | child :: rest => child.clear grain && Tree.allClear grain rest

end

/-- No placeholder that carries texts and comments only makes a difference to the streams of the
tree. -/
def Tree.KeepsClear (tree : Tree Call) : Prop :=
  tree.clear .streams = true

instance (tree : Tree Call) : Decidable tree.KeepsClear :=
  inferInstanceAs (Decidable (_ = true))

/-! ## Expansion -/

namespace Expansion

section Composing

/-- What is not kept of some children are placeholders that carry texts and comments only. -/
def Mask (kept : List Bool) (children : List (Tree Call)) : Prop :=
  List.Forall₂ (fun child held => held = false → child.isBare = true) children kept

variable {kept : List Bool} {alternatives counterparts : List (List (Stream Call))}

/-- The children's streams but for those of the children left out. -/
theorem thins_flatten
    (thinned : Thinned Thins (Strategy.alone Stream.bare) kept alternatives counterparts) :
    Thins alternatives.flatten counterparts.flatten := by
  induction thinned with
  | nil => exact ⟨[], .nil⟩
  | keep here _ ih => exact here.append ih
  | drop left_out _ ih =>
      obtain ⟨stream, rfl, bare⟩ := Strategy.alone_iff.mp left_out
      exact (Stream.bare_thins bare).append ih

theorem toAtomic_follows {stream other : Stream Call} (follows : stream.Follows other) :
    stream.toAtomic.Follows other.toAtomic := by
  rw [Stream.Follows, emissions_toAtomic, emissions_toAtomic]
  exact follows

theorem emissions_empty_of_units {stream other : Stream Call}
    (alike : Strategy.UnitsAlike UnitFollows stream other) (empty : other.emissions = []) :
    stream.emissions = [] := by
  have no_units : other.units = [] := by
    refine List.eq_nil_iff_forall_not_mem.mpr (fun unit member => other.filled unit member ?_)
    exact List.flatten_eq_nil_iff.mp empty unit member
  rw [Strategy.UnitsAlike, no_units, List.forall₂_nil_right_iff] at alike
  rw [Stream.emissions, alike, List.flatten_nil]

/-- All emissions in one unit, if something is left of them. -/
theorem toAtomic_alike {stream other : Stream Call} (follows : stream.Follows other)
    (heard : other.emissions = [] → stream.emissions = []) :
    Strategy.UnitsAlike UnitFollows stream.toAtomic other.toAtomic := by
  by_cases empty : other.emissions = []
  · rw [Stream.toAtomic, Stream.toAtomic, empty, heard empty]
    exact .nil
  · exact Strategy.unitsAlike_ofUnits (fun _ _ => UnitFollows.isEmpty) (.cons ⟨empty, follows⟩ .nil)

variable {info : BlockInfo} {grain : Grain} {children : List (Tree Call)}
  (mask : Mask kept children)
  (allowed : (children.all (fun child => !child.isBare) || info.admits grain children) = true)
  (thinned : Thinned (info.inner grain children).Alike (Strategy.alone Stream.bare) kept
    alternatives counterparts)

include mask allowed thinned

/-- Where no placeholder is allowed among the children, nothing is left out. -/
theorem paired_of_strict (strict : info.admits grain children = false) :
    List.Forall₂ (info.inner grain children).Alike alternatives counterparts := by
  refine thinned.paired (fun gone => ?_)
  rw [strict, Bool.or_false, List.all_eq_true] at allowed
  obtain ⟨child, member, bare⟩ := Paired.exists_partner mask false gone
  have spoken := allowed child member
  rw [bare rfl] at spoken
  cases spoken

omit allowed thinned in
/-- A child that is no placeholder is kept. -/
theorem some_kept {V : List (Stream Call) → List (Stream Call) → Prop}
    {gone : List (Stream Call) → Bool}
    (thinned : Thinned V gone kept alternatives counterparts)
    (another : children.any (fun child => !child.isBare) = true) : counterparts ≠ [] := by
  obtain ⟨child, member, spoken⟩ := List.any_eq_true.mp another
  obtain ⟨held, there, only_bare⟩ := Paired.exists_partner mask.flip child member
  have kept_here : held = true := by
    cases held with
    | true => rfl
    | false =>
        rw [only_bare rfl] at spoken
        cases spoken
  subst kept_here
  rw [← List.length_pos_iff, thinned.size]
  exact List.count_pos_iff.mpr there

/-- The streams of all children, one after another, in a block that takes them so. -/
theorem concat_alike (kind : info.kind = .sequence) :
    (info.made grain children).Alike [Stream.concat alternatives.flatten]
      [Stream.concat counterparts.flatten] := by
  by_cases fine : grain = .units
  · have inner : info.inner grain children = .units := by simp [BlockInfo.inner, kind, fine]
    have made : info.made grain children = .units := by simp [BlockInfo.made, kind, fine]
    have strict : info.admits grain children = false := by
      simp [BlockInfo.admits, kind, inner]
    have paired := paired_of_strict mask allowed thinned strict
    rw [inner] at paired
    rw [made]
    exact .cons (Strategy.catenation_unitsAlike (List.rel_flatten paired)) .nil
  · have inner : info.inner grain children = .emissions := by
      simp [BlockInfo.inner, kind, fine]
    have made : info.made grain children = .streams := by simp [BlockInfo.made, kind, fine]
    rw [inner] at thinned
    rw [made]
    exact .cons (thins_flatten thinned).concat .nil

/-- The same in one unit. -/
theorem atomic_alike (kind : info.kind = .atomic) (heard : ∀ call, .leaf call ∈ children →
      call ∈ alternatives.flatten.flatMap Stream.emissions) :
    (info.made grain children).Alike [(Stream.concat alternatives.flatten).toAtomic]
      [(Stream.concat counterparts.flatten).toAtomic] := by
  by_cases fine : grain = .units
  · have made : info.made grain children = .units := by simp [BlockInfo.made, kind, fine]
    rw [made]
    refine .cons ?_ .nil
    by_cases spoken : children.any Tree.isSpoken = true
    · have inner : info.inner grain children = .emissions := by
        simp [BlockInfo.inner, kind, spoken]
      rw [inner] at thinned
      have thins := thins_flatten thinned
      refine toAtomic_alike thins.concat (fun empty => ?_)
      obtain ⟨child, member, is_call⟩ := List.any_eq_true.mp spoken
      obtain ⟨kept, left⟩ := thins
      rw [Stream.emissions_concat] at empty
      cases child with
      | leaf call =>
          have is_spoken : call.isBare = false := by simpa [Tree.isSpoken] using is_call
          exact absurd empty (left.ne_nil (heard call member) is_spoken)
      | block _ _ => cases is_call
    · have inner : info.inner grain children = .units := by
        simp [BlockInfo.inner, kind, fine, spoken]
      have strict : info.admits grain children = false := by
        simp [BlockInfo.admits, kind, inner]
      have paired := paired_of_strict mask allowed thinned strict
      rw [inner] at paired
      have alike := Strategy.catenation_unitsAlike (List.rel_flatten paired)
      exact toAtomic_alike (follows_of_units alike) (emissions_empty_of_units alike)
  · have inner : info.inner grain children = .emissions := by
      simp [BlockInfo.inner, kind, fine]
    have made : info.made grain children = .streams := by simp [BlockInfo.made, kind, fine]
    rw [inner] at thinned
    rw [made]
    exact .cons (toAtomic_follows (thins_flatten thinned).concat) .nil

theorem iterate_alike (kind : info.kind = .iterate) :
    (info.made grain children).Alike alternatives.flatten counterparts.flatten := by
  have made : info.made grain children = info.inner grain children := by
    simp [BlockInfo.made, kind]
  rw [made]
  by_cases coarse : info.inner grain children = .emissions
  · rw [coarse] at thinned ⊢
    exact thins_flatten thinned
  · have strict : info.admits grain children = false := by
      simpa [BlockInfo.admits, kind] using coarse
    have paired := paired_of_strict mask allowed thinned strict
    generalize info.inner grain children = inner at paired coarse
    cases inner with
    | emissions => exact absurd rfl coarse
    | streams => exact List.rel_flatten paired
    | units => exact List.rel_flatten paired

omit mask allowed thinned in
/-- Combinations that belong together, each composed. -/
theorem freely_beside {P : List (Stream Call) → List (Stream Call) → Prop}
    {R : Stream Call → Stream Call → Prop} {combine : Combinator Call} {permute : Permutator Call}
    {compose : Compositor Call}
    (combined : Draw.Beside (List.Forall₂ P) (combine alternatives) (combine counterparts))
    (each : ∀ combination other, P combination other →
      Draw.Beside R (permute combination >>= compose) (permute other >>= compose)) :
    Draw.Beside (List.Forall₂ R) (freely combine permute compose alternatives)
      (freely combine permute compose counterparts) :=
  combined.bind (fun _ _ paired => Draw.beside_mapM paired each)

omit mask allowed thinned in
theorem compositor_of_catenates (catenates : info.catenates = true) {compose : Compositor Call}
    (found : builtins.compositor info.strategies.compositor = .ok compose) :
    compose = Strategy.catenation := by
  have listed := KeyMap.mem_ofList (mem_of_lookup found)
  rw [eq_of_beq catenates] at listed
  simpa using listed

/-- Combinations of the children's streams. -/
theorem freely_alike (kind : info.kind = .free) {composed : Composition Call}
    (found : composition builtins .free info.strategies = .ok composed) :
    Draw.Beside (info.made grain children).Alike (composed alternatives)
      (composed counterparts) := by
  obtain ⟨combine, permute, compose, combines, permutes, composes, rfl⟩ :=
    composition_free_ok found
  have made : info.made grain children = info.inner grain children := by
    simp [BlockInfo.made, kind]
  rw [made]
  by_cases coarse : info.catenates && grain != .units
  · have inner : info.inner grain children = .streams := by
      simp only [BlockInfo.inner, kind, coarse, if_true]
    obtain rfl := compositor_of_catenates (Bool.and_eq_true_iff.mp coarse).1 composes
    by_cases strict : info.admits grain children = false
    · have paired := paired_of_strict mask allowed thinned strict
      rw [inner] at paired ⊢
      refine freely_beside (Strategy.combinator_beside paired combines) ?_
      intro combination other alike
      refine (Strategy.permutator_beside alike permutes).bind (fun _ _ ordered => ?_)
      exact Draw.beside_pure (thins_of_follows ordered).concat
    · simp only [BlockInfo.admits, kind, Bool.not_eq_false, Bool.and_eq_true, bne_iff_ne] at strict
      obtain ⟨⟨⟨_, counts⟩, plain⟩, another⟩ := strict
      obtain rfl := Strategy.permutator_of_plain plain permutes
      rw [inner] at thinned ⊢
      refine freely_beside
        (Strategy.counting_beside counts combines thinned (some_kept mask thinned another)) ?_
      exact fun _ _ later => Draw.beside_pure (thins_of_thinned later).concat
  · have inner : info.inner grain children = .units := by
      simp only [BlockInfo.inner, kind, coarse, Bool.false_eq_true, if_false]
    have strict : info.admits grain children = false := by
      simp only [BlockInfo.admits, kind, coarse, Bool.false_and]
    have paired := paired_of_strict mask allowed thinned strict
    rw [inner] at paired ⊢
    refine freely_beside (Strategy.combinator_beside paired combines) ?_
    intro combination other alike
    refine (Strategy.permutator_beside alike permutes).bind (fun _ _ ordered => ?_)
    exact Strategy.compositor_beside (fun _ _ => UnitFollows.isEmpty) ordered composes

/-- **What composition makes of it.** -/
theorem composition_alike (heard : ∀ call, .leaf call ∈ children →
      call ∈ alternatives.flatten.flatMap Stream.emissions) {compose : Composition Call}
    (composed : composition builtins info.kind info.strategies = .ok compose) :
    Draw.Beside (info.made grain children).Alike (compose alternatives)
      (compose counterparts) := by
  cases kind : info.kind with
  | sequence =>
      rw [kind] at composed
      cases composed
      exact Draw.beside_pure (concat_alike mask allowed thinned kind)
  | atomic =>
      rw [kind] at composed
      cases composed
      exact Draw.beside_pure (atomic_alike mask allowed thinned kind heard)
  | iterate =>
      rw [kind] at composed
      cases composed
      exact Draw.beside_pure (iterate_alike mask allowed thinned kind)
  | free =>
      rw [kind] at composed
      exact freely_alike mask allowed thinned kind composed

omit mask allowed thinned in
/-- What finishing makes of it. -/
theorem finishing_alike {made : Grain} {strategies : StrategySet}
    (settled : made ≠ .emissions ∨ strategies.rearranger ≠ some "random")
    {finish : List (Stream Call) → Draw (List (Stream Call))}
    (found : finishing builtins strategies = .ok finish) {streams others : List (Stream Call)}
    (alike : made.Alike streams others) :
    Draw.Beside made.Alike (finish streams) (finish others) := by
  cases made with
  | emissions =>
      have plain : strategies.rearranger ≠ some "random" := settled.resolve_left (fun h => h rfl)
      obtain ⟨finished, drawn, same⟩ := finishing_following found streams plain
      obtain ⟨counterparts, also_drawn, also_same⟩ := finishing_following found others plain
      obtain ⟨kept, thinned⟩ := alike
      rw [drawn, also_drawn]
      exact Draw.beside_pure ⟨kept, by rwa [same, also_same]⟩
  | streams =>
      exact Strategy.finishing_beside alike (fun paired => (thins_of_follows paired).concat) found
  | units => exact Strategy.finishing_beside alike Strategy.catenation_unitsAlike found

end Composing

section Expanding

theorem mem_emissions_of_leaf {registry : Registry Call} {children : List (Tree Call)}
    {call : Call} (member : .leaf call ∈ children) {engine after : Engine}
    {alternatives : List (List (Stream Call))}
    (expanded : expandAll registry children engine = (.ok alternatives, after)) :
    call ∈ alternatives.flatten.flatMap Stream.emissions := by
  induction children generalizing engine alternatives with
  | nil => cases member
  | cons first rest ih =>
      obtain ⟨streams, middle, began, expanded⟩ := Computation.bind_ok_iff.mp expanded
      obtain ⟨others, _, further, expanded⟩ := Computation.bind_ok_iff.mp expanded
      cases expanded
      rw [List.flatten_cons, List.flatMap_append, List.mem_append]
      rcases List.mem_cons.mp member with rfl | later
      · cases began
        exact .inl (by simp [Stream.single, Stream.emissions])
      · exact .inr (ih later further)

theorem Grain.leaf (grain : Grain) (call : Call) :
    grain.Alike [Stream.single call] [Stream.single call.hushed] := by
  have units : Grain.units.Alike [Stream.single call] [Stream.single call.hushed] :=
    .cons (.cons ⟨List.cons_ne_nil _ _, [true], .keep rfl .nil⟩ .nil) .nil
  exact units.coarser (by cases grain <;> decide)

mutual

/-- **Texts and comments aside, the same emissions.**  A tree in which no placeholder that
carries texts and comments only makes a difference expands to what the tree without texts and
comments does, such placeholders aside, and from the same draws. -/
theorem expand_hushed : {tree other : Tree Call} → Hushed tree other → (grain : Grain) →
    tree.clear grain = true →
    InStep Engine.Alike grain.Alike (expand builtins tree) (expand builtins other)
  | _, _, .leaf call, grain, _ => inStep_pure (Grain.leaf grain call)
  | .block info children, .block _ others, .block _ below, grain, clear => by
      obtain ⟨allowed, children_clear⟩ := Bool.and_eq_true_iff.mp clear
      obtain ⟨kept, mask, expands⟩ := expandAll_hushed below _ children_clear
      rw [expand, expand]
      refine Generation.locating_inStep _ ((Generation.ofExcept_inStep (Agree.known _)).bind ?_)
      rintro compose _ ⟨rfl, composed⟩
      have heard : ∀ engine alternatives after,
          expandAll builtins children engine = (.ok alternatives, after) →
          ∀ call, .leaf call ∈ children → call ∈ alternatives.flatten.flatMap Stream.emissions :=
        fun _ _ _ run _ member => mem_emissions_of_leaf member run
      refine (expands.knowing heard).bind ?_
      rintro alternatives counterparts ⟨thinned, heard⟩
      refine (Generation.draw_inStep
        (composition_alike mask allowed thinned heard composed)).bind ?_
      intro streams counterparts alike
      refine (Generation.ofExcept_inStep (Agree.known _)).bind ?_
      rintro finish _ ⟨rfl, found⟩
      have finishes := finishing_alike (info.settled grain children) found alike
      refine (Generation.draw_inStep finishes).bind (fun made result same => ?_)
      exact (Generation.remark_inStep _ _).bind
        (fun _ _ _ => inStep_pure (same.coarser (info.rank_made grain children)))

theorem expandAll_hushed : {children others : List (Tree Call)} → HushedAll children others →
    (grain : Grain) → Tree.allClear grain children = true →
    ∃ kept, Mask kept children ∧
      InStep Engine.Alike (Thinned grain.Alike (Strategy.alone Stream.bare) kept)
        (expandAll builtins children) (expandAll builtins others)
  | _, _, .nil, _, _ => ⟨[], .nil, inStep_pure .nil⟩
  | _, _, .keep here later, grain, clear => by
      obtain ⟨first_clear, rest_clear⟩ := Bool.and_eq_true_iff.mp clear
      obtain ⟨kept, mask, expands⟩ := expandAll_hushed later grain rest_clear
      refine ⟨true :: kept, .cons (fun gone => nomatch gone) mask, ?_⟩
      rw [expandAll, expandAll]
      refine (expand_hushed here grain first_clear).bind (fun streams others alike => ?_)
      exact expands.bind (fun _ _ thinned => inStep_pure (.keep alike thinned))
  | .leaf call :: rest, others, .drop bare later, grain, clear => by
      obtain ⟨kept, mask, expands⟩ := expandAll_hushed later grain (Bool.and_eq_true_iff.mp clear).2
      refine ⟨false :: kept, .cons (fun _ => bare) mask, ?_⟩
      rw [expandAll, ← bind_pure (expandAll builtins others), expand, pure_bind]
      refine expands.bind (fun _ _ thinned => inStep_pure (.drop ?_ thinned))
      simpa [Strategy.alone, Stream.bare, Stream.single, Stream.emissions] using bare

end

end Expanding

end Expansion

/-! ## Finalization -/

/-- The instruction without texts and comments. -/
def Instruction.hushed (line : Instruction) : Instruction :=
  { line with outputs := [] }

/-- A line of texts and comments and nothing else. -/
def Instruction.isBare (line : Instruction) : Bool :=
  line.name.isEmpty && line.labels.isEmpty && line.operands.isEmpty && !line.outputs.isEmpty

/-- The second sequence is the first without texts and comments, and without some of the lines
that have nothing else. -/
abbrev ThinnedLines : List Bool → Sequence → Sequence → Prop :=
  Thinned (fun line other => other = line.hushed) Instruction.isBare

theorem strongNames_thinned {kept : List Bool} {calls others : List Call}
    (thinned : ThinnedCalls kept calls others) :
    strongNames calls = strongNames others := by
  induction thinned with
  | nil => rfl
  | @keep _ _ _ call _ related _ ih =>
      subst related
      exact congrArg (call.labels.filterMap Label.strongName? ++ ·) ih
  | @drop _ _ _ call left_out _ ih =>
      simp only [Call.isBare, Bool.and_eq_true, List.isEmpty_iff] at left_out
      rw [← ih, strongNames, List.flatMap_cons, left_out.1.1.2]
      rfl

theorem finalizeCalls_inStep (strong : List String) {kept : List Bool} {calls others : List Call}
    (thinned : ThinnedCalls kept calls others) : ∀ ledger : Ledger,
    InStep Engine.Alike (ThinnedLines kept) (finalizeCalls strong ledger calls)
      (finalizeCalls strong ledger others) := by
  induction thinned with
  | nil => exact fun _ => inStep_pure .nil
  | @keep _ _ _ call _ related _ ih =>
      intro ledger
      subst related
      rw [finalizeCalls, finalizeCalls]
      refine InStep.bind (V := Eq)
        (Generation.locating_inStep call.location (Generation.sample_inStep _)) ?_
      rintro operands _ rfl
      refine (inStep_forM _ (fun _ _ => Generation.remark_inStep _ _)).bind (fun _ _ _ => ?_)
      refine (ih _).bind (fun lines results later => inStep_pure ?_)
      exact .keep rfl later
  | @drop _ _ others call left_out _ ih =>
      intro ledger
      simp only [Call.isBare, Bool.and_eq_true, List.isEmpty_iff] at left_out
      obtain ⟨⟨⟨nameless, unlabelled⟩, plain⟩, texts⟩ := left_out
      have settles : call.settle = pure [] := by
        rw [Call.settle, plain]
        rfl
      rw [finalizeCalls, settles, pure_bind, unlabelled,
        ← bind_pure (finalizeCalls strong ledger others)]
      refine (ih ledger).bind (fun lines results later => inStep_pure (.drop ?_ later))
      simp [Instruction.isBare, Call.toInstruction, nameless, texts]

theorem finalize_inStep {stream other : Stream Call} {kept : List Bool}
    (thinned : ThinnedCalls kept stream.emissions other.emissions) :
    InStep Engine.Alike (ThinnedLines kept) (finalize stream) (finalize other) := by
  rw [finalize, finalize, strongNames_thinned thinned]
  exact finalizeCalls_inStep _ thinned {}

end TestProgram
