/-
# TestProgram.Proofs.Handles -- which block a handle closes

A handle knows the id of a block and the depth at which it was opened, and it may be kept for as
long as one likes.  `Session.closeBlock` compares the two with the innermost open block.  Neither
is the block itself: the id of a block that was dropped or discarded is given to the next one that
opens in its place.

What is meant by the very block of a handle is said by the height of the stack alone
(`Session.StaysOpen`): since the block was opened, the stack has not come down to it.  A block that
stays open keeps its place (`Session.StaysOpen.ids`), and a stack that rises again has had another
block opened there (`Session.exists_opening`).  From the two it follows when a handle takes its
own block and when it takes another (`Session.Takes.own_iff`), and `handle_closes_own_block` puts
together what may be relied on.
-/
import TestProgram.Proofs.Plans
import Mathlib.Data.List.Induction

namespace TestProgram

set_option autoImplicit false

/-! ## Closing -/

namespace Session

variable {session : Session} {handle : BlockHandle}

/-- The innermost block is one that the handle stands for, as far as a handle tells. -/
def Takes (handle : BlockHandle) (session : Session) : Prop :=
  session.ids.head? = some handle.id ∧ session.blocks.length = handle.depth + 1

theorem closeBlock_refused (other : ¬ session.Takes handle) :
    ∃ fault, closeBlock handle session = (.error fault, session) := by
  unfold closeBlock
  cases stack : session.blocks with
  | nil => exact ⟨_, rfl⟩
  | cons top outer =>
      have differs : ¬ (top.id = handle.id ∧ (top :: outer).length = handle.depth + 1) := by
        rintro ⟨same, height⟩
        refine other ⟨?_, by rw [stack]; exact height⟩
        rw [ids, stack, List.map_cons, List.head?_cons, same]
      simp only [if_neg differs]
      exact ⟨_, rfl⟩

/-- A block that its handle takes is gone, whether it was sealed or not admissible. -/
theorem closeBlock_gone (takes : session.Takes handle) :
    (closeBlock handle session).2.blocks.length = handle.depth := by
  obtain ⟨innermost, height⟩ := takes
  unfold closeBlock
  cases stack : session.blocks with
  | nil =>
      rw [stack] at height
      cases height
  | cons top outer =>
      rw [ids, stack, List.map_cons, List.head?_cons, Option.some.injEq] at innermost
      rw [stack] at height
      simp only [if_pos (And.intro innermost height)]
      split
      · exact Nat.succ.inj height
      · cases outer <;> exact Nat.succ.inj height

theorem takes_of_closes (closes : (closeBlock handle session).1.isOk = true) :
    session.Takes handle := by
  by_contra other
  obtain ⟨fault, refused⟩ := closeBlock_refused other
  rw [refused] at closes
  cases closes

end Session

/-! ## Blocks that stay open -/

namespace Session

/-- Since a session in which the block of a handle is innermost, the stack of open blocks has not
come down to it: this very block is still open. -/
def StaysOpen (opened : Session) (handle : BlockHandle) (deeds : List Deed) : Prop :=
  ∀ earlier, earlier <+: deeds → handle.depth < (opened.through earlier).blocks.length

/-- The very block of the handle is still open, and it is the innermost one. -/
def StaysInnermost (opened : Session) (handle : BlockHandle) (deeds : List Deed) : Prop :=
  opened.StaysOpen handle deeds ∧ (opened.through deeds).blocks.length = handle.depth + 1

/-- One of the deeds opens another block, and its handle is the same. -/
def OpensAgain (opened : Session) (handle : BlockHandle) (deeds : List Deed) : Prop :=
  ∃ earlier deed, earlier ++ [deed] <+: deeds ∧
    deed.opened? (opened.through earlier) = some handle

variable {opened : Session} {handle : BlockHandle}

theorem StaysOpen.of_prefix {deeds earlier : List Deed} (stays : opened.StaysOpen handle deeds)
    (begins : earlier <+: deeds) : opened.StaysOpen handle earlier :=
  fun first before => stays first (before.trans begins)

theorem staysOpen_concat {deeds : List Deed} {deed : Deed} :
    opened.StaysOpen handle (deeds ++ [deed]) ↔ opened.StaysOpen handle deeds ∧
      handle.depth < (opened.through (deeds ++ [deed])).blocks.length := by
  constructor
  · exact fun stays => ⟨stays.of_prefix (List.prefix_append _ _), stays _ (List.prefix_refl _)⟩
  · rintro ⟨stays, last⟩ earlier begins
    rcases List.prefix_concat_iff.mp begins with rfl | before
    · exact last
    · exact stays earlier before

/-- A block that stays open keeps its place, and so do those below it. -/
theorem StaysOpen.ids {deeds : List Deed} {base : List BlockId}
    (on_top : opened.ids = handle.id :: base) (height : base.length = handle.depth)
    (stays : opened.StaysOpen handle deeds) :
    handle.id :: base <:+ (opened.through deeds).ids := by
  induction deeds using List.reverseRecOn with
  | nil => exact on_top ▸ List.suffix_refl _
  | append_singleton deeds deed ih =>
      obtain ⟨before, above⟩ := staysOpen_concat.mp stays
      have stood := ih before
      rw [through_append, through_cons, through_nil] at above ⊢
      cases deed.stacking (opened.through deeds) with
      | opens other _ _ ids =>
          rw [ids]
          exact stood.trans (List.suffix_cons _ _)
      | keeps _ ids =>
          rw [ids]
          exact stood
      | lowers _ _ kept =>
          refine List.suffix_of_suffix_length_le stood kept ?_
          rw [length_ids, List.length_cons, height]
          exact above

/-- A stack that rises above a height has had a block opened there last, and this block has
stayed open. -/
theorem exists_opening {deeds : List Deed} {depth : Nat} (low : opened.blocks.length ≤ depth)
    (high : depth < (opened.through deeds).blocks.length) :
    ∃ earlier deed later handle, deeds = earlier ++ deed :: later ∧ handle.depth = depth ∧
      deed.opened? (opened.through earlier) = some handle ∧
      Session.StaysOpen (deed.perform (opened.through earlier)).2 handle later := by
  induction deeds using List.reverseRecOn with
  | nil => exact absurd high (Nat.not_lt.mpr low)
  | append_singleton deeds deed ih =>
      by_cases above : depth < (opened.through deeds).blocks.length
      · obtain ⟨earlier, first, later, handle, rfl, same, opens, stays⟩ := ih above
        refine ⟨earlier, first, later ++ [deed], handle, by simp, same, opens, ?_⟩
        refine staysOpen_concat.mpr ⟨stays, ?_⟩
        rw [same]
        simpa using high
      · rw [through_append, through_cons, through_nil] at high
        cases deed.stacking (opened.through deeds) with
        | opens handle opens height ids =>
            have risen := congrArg List.length ids
            rw [length_ids, List.length_cons, length_ids] at risen
            refine ⟨deeds, deed, [], handle, rfl, by omega, opens, ?_⟩
            intro earlier begins
            obtain rfl := List.prefix_nil.mp begins
            rw [through_nil]
            omega
        | keeps _ ids =>
            have same_height := congrArg List.length ids
            rw [length_ids, length_ids] at same_height
            omega
        | lowers _ _ kept =>
            have fewer := kept.length_le
            rw [length_ids, length_ids] at fewer
            omega

/-! ## Handles that stand for one block only -/

section Handles

variable {session : Session} {opening : Deed} {handle : BlockHandle} {deeds : List Deed}
  (opens : opening.opened? session = some handle)

include opens

/-- What opening a block comes to: it stands on the others, with its handle. -/
theorem opening_stands : (opening.perform session).2.ids = handle.id :: session.ids ∧
    session.ids.length = handle.depth := by
  cases opening.stacking session with
  | opens other opened height ids =>
      obtain rfl := Option.some.inj (opened.symm.trans opens)
      exact ⟨ids, (length_ids session).trans height.symm⟩
  | keeps opened ids => cases opened.symm.trans opens
  | lowers opened closing kept => cases opened.symm.trans opens

theorem StaysInnermost.takes
    (own : (opening.perform session).2.StaysInnermost handle deeds) :
    ((opening.perform session).2.through deeds).Takes handle := by
  obtain ⟨on_top, height⟩ := opening_stands opens
  obtain ⟨inner, stack⟩ := own.1.ids on_top height
  have exact_height := own.2
  rw [← length_ids, ← stack, List.length_append, List.length_cons, height] at exact_height
  obtain rfl := List.eq_nil_of_length_eq_zero (l := inner) (by omega)
  exact ⟨by rw [← stack]; rfl, own.2⟩

/-- A handle takes a block that is not its own only after another one has been opened with an
equal handle. -/
theorem Takes.own_iff (takes : ((opening.perform session).2.through deeds).Takes handle) :
    (opening.perform session).2.StaysInnermost handle deeds ↔
      ¬ (opening.perform session).2.OpensAgain handle deeds := by
  constructor
  · rintro ⟨stays, _⟩ ⟨earlier, deed, begins, again⟩
    have before : earlier <+: deeds := (List.prefix_append earlier [deed]).trans begins
    have higher := stays earlier before
    have height := (opening_stands again).2
    rw [length_ids] at height
    omega
  · intro once
    refine ⟨?_, takes.2⟩
    by_contra down
    simp only [StaysOpen, not_forall, Nat.not_lt] at down
    obtain ⟨earlier, ⟨later, rfl⟩, low⟩ := down
    have high : handle.depth <
        (((opening.perform session).2.through earlier).through later).blocks.length := by
      rw [← through_append, takes.2]
      exact Nat.lt_succ_self _
    obtain ⟨before, deed, after, other, rfl, same, again, stays⟩ := exists_opening low high
    have innermost : StaysInnermost
        (deed.perform (((opening.perform session).2.through earlier).through before)).2 other
        after := by
      refine ⟨stays, ?_⟩
      have height := takes.2
      rw [through_append, through_append, through_cons] at height
      rw [height, same]
    have named := (innermost.takes again).1
    have also_named := takes.1
    rw [through_append, through_append, through_cons, named, Option.some.injEq] at also_named
    refine once ⟨earlier ++ before, deed, ?_, ?_⟩
    · exact ⟨after, by simp⟩
    · rw [through_append, again]
      obtain ⟨id, depth⟩ := other
      obtain ⟨_, _⟩ := handle
      cases also_named
      cases same
      rfl

end Handles

end Session

/-! ## Bodies of scoped blocks -/

/-- The deed does not bring the stack down to the block of the handle. -/
def Deed.Spares (handle : BlockHandle) : Deed → Prop
  | .closeBlock other => other ≠ handle
  | .leaveBlock other _ _ => handle.depth < other.depth
  | .endPhase _ _ => False
  | _ => True

section Bodies

variable {session : Session} {handle : BlockHandle} {below : List BlockId}

/-- A block is closed by no handle but its own. -/
theorem Session.closeBlock_spares {other : BlockHandle} (differs : other ≠ handle)
    (height : below.length = handle.depth) (stands : handle.id :: below <:+ session.ids) :
    handle.id :: below <:+ (Session.closeBlock other session).2.ids := by
  by_cases takes : session.Takes other
  · refine List.suffix_of_suffix_length_le stands (Session.closeBlock_lowers other session) ?_
    rw [Session.length_ids, Session.closeBlock_gone takes, List.length_cons, height]
    have some_open := stands.length_le
    rw [Session.length_ids, takes.2, List.length_cons, height] at some_open
    by_contra low
    have same_depth : other.depth = handle.depth := by omega
    have whole : handle.id :: below = session.ids := by
      refine stands.eq_of_length ?_
      rw [List.length_cons, height, Session.length_ids, takes.2, same_depth]
    have named := takes.1
    rw [← whole, List.head?_cons, Option.some.injEq] at named
    obtain ⟨_, _⟩ := other
    obtain ⟨_, _⟩ := handle
    cases named
    cases same_depth
    exact differs rfl
  · obtain ⟨fault, refused⟩ := Session.closeBlock_refused takes
    rw [refused]
    exact stands

theorem Session.discardAbove_spares {depth : Nat} (inner : handle.depth < depth)
    (height : below.length = handle.depth) (stands : handle.id :: below <:+ session.ids) :
    handle.id :: below <:+ (session.discardAbove depth).ids := by
  refine List.suffix_of_suffix_length_le stands
    (Session.lowers_of_blocks (Session.discardAbove_suffix depth session)) ?_
  have tall := stands.length_le
  rw [Session.length_ids, List.length_cons, height] at tall
  rw [Session.length_ids, List.length_cons, height, Session.discardAbove, List.length_drop]
  omega

/-- A scoped block inside ends without bringing down what is below it. -/
theorem Session.leaveBlock_spares {other : BlockHandle} (inner : handle.depth < other.depth)
    (location : Location) (body : Except Fault Unit) (height : below.length = handle.depth)
    (stands : handle.id :: below <:+ session.ids) :
    handle.id :: below <:+ (Session.leaveBlock other location body session).2.ids := by
  have differs : other ≠ handle := by
    rintro rfl
    exact Nat.lt_irrefl _ inner
  cases body with
  | error fault => exact discardAbove_spares inner height stands
  | ok _ => exact discardAbove_spares inner height (closeBlock_spares differs height stands)

theorem Deed.Spares.stands {deed : Deed} (spares : deed.Spares handle)
    (height : below.length = handle.depth) (stands : handle.id :: below <:+ session.ids) :
    handle.id :: below <:+ (deed.perform session).2.ids := by
  cases deed.stacking session with
  | opens other _ _ ids =>
      rw [ids]
      exact stands.trans (List.suffix_cons _ _)
  | keeps _ ids =>
      rw [ids]
      exact stands
  | lowers _ closing kept =>
      cases deed with
      | closeBlock other => exact Session.closeBlock_spares spares height stands
      | leaveBlock other location body =>
          exact Session.leaveBlock_spares spares location body height stands
      | endPhase kind body => exact spares.elim
      | _ => cases closing

/-- What bodies of scoped blocks do in a phase leaves the scoped block open, as long as they close
no block with a handle like its own. -/
theorem Deed.spares_rule (height : below.length = handle.depth) :
    Deed.Rule (fun session => session.lifecycle ≠ .created ∧ handle.id :: below <:+ session.ids)
      (Deed.Spares handle) where
  step := fun {_ deed} holds spares => ⟨deed.begun holds.1, spares.stands height holds.2⟩
  common := fun {deed} common => by
    cases deed <;> trivial
  leaves := fun {session _ _ _ _ other} holds opens _ => by
    have tall := holds.2.length_le
    rw [Session.length_ids, List.length_cons, height] at tall
    show handle.depth < other.depth
    rw [Session.depth_of_openBlock opens]
    exact tall

/-- The block of a scope stays open as long as its body closes no block with an equal handle. -/
theorem Session.staysOpen_body {ε : Type} {opening : Deed}
    (opens : opening.opened? session = some handle) (body : Plan ε Unit) {studio : Studio ε}
    (inside : studio.session = (opening.perform session).2)
    (begun : studio.session.lifecycle ≠ .created)
    (others : ∀ other, .closeBlock other ∈ body.deeds studio → other ≠ handle) :
    (opening.perform session).2.StaysOpen handle (body.deeds studio) := by
  obtain ⟨on_top, height⟩ := opening_stands opens
  have rule : Deed.Rule
      (fun later => later.lifecycle ≠ .created ∧ handle.id :: session.ids <:+ later.ids)
      (Deed.Spares handle) := Deed.spares_rule height
  have start : studio.session.lifecycle ≠ .created ∧
      handle.id :: session.ids <:+ studio.session.ids :=
    ⟨begun, inside ▸ on_top ▸ List.suffix_refl _⟩
  have spares := body.obeys rule And.left trivial studio start others
  intro earlier before
  have stands := (rule.through start (fun deed member => spares deed (before.subset member))).2
  have tall := stands.length_le
  rw [length_ids, List.length_cons, height, inside] at tall
  exact tall

end Bodies

/-! ## What a handle closes -/

/-- **What a handle closes.**  When a handle closes a block, this is the very block that it was
given for, still open and innermost, unless another block has been opened with an equal handle
since.  As long as none has, every other attempt is refused and changes nothing, and so is every
attempt after the first one on that innermost block, whether that has sealed the block or dropped
it.  And whatever the body of a scoped block does, the block stays open as long as the body closes
nothing by an equal handle. -/
theorem handle_closes_own_block {session : Session} {opening : Deed} {handle : BlockHandle}
    (opens : opening.opened? session = some handle) (deeds : List Deed) :
    let opened := (opening.perform session).2
    let now := opened.through deeds
    ((Session.closeBlock handle now).1.isOk = true →
      (opened.StaysInnermost handle deeds ↔ ¬ opened.OpensAgain handle deeds)) ∧
    (¬ opened.OpensAgain handle deeds →
      (¬ opened.StaysInnermost handle deeds →
        ∃ fault, Session.closeBlock handle now = (.error fault, now)) ∧
      ∀ earlier later, deeds = earlier ++ .closeBlock handle :: later →
        opened.StaysInnermost handle earlier →
        ∃ fault, Session.closeBlock handle now = (.error fault, now)) ∧
    ∀ (ε : Type) (body : Plan ε Unit) (studio : Studio ε), studio.session = opened →
      opened.lifecycle ≠ .created →
      (∀ other, .closeBlock other ∈ body.deeds studio → other ≠ handle) →
      opened.StaysOpen handle (body.deeds studio) := by
  intro opened now
  refine ⟨fun closes => (Session.takes_of_closes closes).own_iff opens, fun once => ?_, ?_⟩
  · have refused : ¬ opened.StaysInnermost handle deeds →
        ∃ fault, Session.closeBlock handle now = (.error fault, now) := fun other =>
      Session.closeBlock_refused (fun takes => other ((takes.own_iff opens).mpr once))
    refine ⟨refused, fun earlier later split own => refused (fun still => ?_)⟩
    -- The attempt has brought the stack down to the block, sealed or not.
    have gone :
        (opened.through (earlier ++ [.closeBlock handle])).blocks.length = handle.depth := by
      rw [Session.through_append]
      exact Session.closeBlock_gone (own.takes opens)
    have tried : earlier ++ [.closeBlock handle] <+: deeds := ⟨later, by rw [split]; simp⟩
    have above := still.1 _ tried
    omega
  · intro ε body studio inside begun others
    exact Session.staysOpen_body opens body inside (inside ▸ begun) others

namespace Handles

/-- A new session in its first phase. -/
def inPhase : Session :=
  (Session.new {}).through [.beginPhase .pre]

/-- The handle of the first block inside. -/
def first : BlockHandle :=
  ⟨BlockId.root.child 0, 1⟩

/-- A sequence that asks for a combinator, which sequences have no use for. -/
def unfit : Deed :=
  .openBlock .sequence { strategies := { combinator := some "random" } } none

theorem not_opensAgain_closing (opened : Session) :
    ¬ opened.OpensAgain first [.closeBlock first] := by
  rintro ⟨earlier, deed, begins, again⟩
  have short := begins.length_le
  rw [List.length_append, List.length_singleton, List.length_singleton] at short
  obtain rfl := List.eq_nil_of_length_eq_zero (l := earlier) (by omega)
  obtain ⟨_, same⟩ := begins
  obtain rfl : deed = .closeBlock first := (List.cons.inj same).1
  cases again

end Handles

open Handles

/-- A block is dropped when it is closed, and then its handle closes nothing. -/
theorem handle_closes_own_block_once :
    let opened := (unfit.perform inPhase).2
    ∃ fault, Session.closeBlock first (opened.through [.closeBlock first]) =
      (.error fault, opened.through [.closeBlock first]) := by
  have opens : unfit.opened? inPhase = some first := rfl
  obtain ⟨_, holds, _⟩ := handle_closes_own_block opens [.closeBlock first]
  refine (holds (not_opensAgain_closing _)).2 [] [] rfl ⟨?_, rfl⟩
  intro earlier begins
  obtain rfl := List.prefix_nil.mp begins
  decide

/-- A block opened after another one was dropped gets the same id at the same depth, and the
handle of the dropped one closes it. -/
theorem stale_handle_closes :
    ¬ ∀ (before : List Deed) (opening : Deed) (handle : BlockHandle),
      opening.opened? ((Session.new {}).through before) = some handle →
      ∀ deeds : List Deed,
        let opened := (opening.perform ((Session.new {}).through before)).2
        (Session.closeBlock handle (opened.through deeds)).1.isOk = true →
          opened.StaysInnermost handle deeds := by
  intro always
  have own := always [.beginPhase .pre] unfit first rfl
    [.closeBlock first, .openBlock .sequence {} none] rfl
  have still := own.1 [.closeBlock first] ⟨[.openBlock .sequence {} none], rfl⟩
  exact absurd still (by decide)

end TestProgram
