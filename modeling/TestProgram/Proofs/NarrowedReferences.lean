/-
# TestProgram.Proofs.NarrowedReferences -- narrowing step by step keeps the common bits

A reference is narrowed to one range after another.  Each step looks only at its own range and at
the bits held so far, and these are always what the ranges up to there have in common
(`Common`, kept by `Common.extended`).  A stretch without bits never gets one back, so one look at
the end decides about the whole chain: it succeeds exactly when the greatest low is less than the
least high (`narrowAll_ok_iff`).  In what ranges have in common neither their order nor how often
one of them occurs can be seen (`Common.of_same`).

A chain that fails has stopped at the first range that left no bit, and says which one it was
(`narrowAll_error`, `narrow_error`); one that goes on only restricts further (`narrowAll_within`).
-/
import TestProgram.Proofs.Computation
import TestProgram.TemplateFile.Run
import Mathlib.Data.List.Induction

namespace TestProgram

set_option autoImplicit false

namespace AddressReference

/-! ## What ranges have in common -/

/-- The stretch from the greatest low to the least high of some ranges. -/
structure Common (ranges : List (Nat × Nat)) (bits : BitRange) : Prop where
  low : (ranges.map Prod.fst).max? = some bits.low
  high : (ranges.map Prod.snd).min? = some bits.high

variable {ranges : List (Nat × Nat)} {bits : BitRange}

theorem common_iff : Common ranges bits ↔
    (bits.low ∈ ranges.map Prod.fst ∧ ∀ range ∈ ranges, range.1 ≤ bits.low) ∧
      bits.high ∈ ranges.map Prod.snd ∧ ∀ range ∈ ranges, bits.high ≤ range.2 := by
  constructor
  · intro common
    obtain ⟨low_mem, low_greatest⟩ := List.max?_eq_some_iff.mp common.low
    obtain ⟨high_mem, high_least⟩ := List.min?_eq_some_iff.mp common.high
    exact ⟨⟨low_mem, fun range member => low_greatest _ (List.mem_map_of_mem member)⟩,
      high_mem, fun range member => high_least _ (List.mem_map_of_mem member)⟩
  · rintro ⟨⟨low_mem, low_greatest⟩, high_mem, high_least⟩
    exact ⟨List.max?_eq_some_iff.mpr ⟨low_mem, List.forall_mem_map.mpr low_greatest⟩,
      List.min?_eq_some_iff.mpr ⟨high_mem, List.forall_mem_map.mpr high_least⟩⟩

theorem exists_common (given : ranges ≠ []) : ∃ bits, Common ranges bits := by
  cases ranges with
  | nil => exact absurd rfl given
  | cons first rest => exact ⟨⟨_, _⟩, ⟨List.max?_cons', List.min?_cons'⟩⟩

theorem Common.unique {other : BitRange} (common : Common ranges bits)
    (also_common : Common ranges other) : bits = other := by
  obtain ⟨low, high⟩ := bits
  obtain ⟨other_low, other_high⟩ := other
  have same_low : low = other_low := Option.some.inj (common.low.symm.trans also_common.low)
  have same_high : high = other_high := Option.some.inj (common.high.symm.trans also_common.high)
  rw [same_low, same_high]

/-- The same ranges in another order, or some of them more than once, have the same in common. -/
theorem Common.of_same {others : List (Nat × Nat)} (common : Common ranges bits)
    (same : ∀ range, range ∈ others ↔ range ∈ ranges) : Common others bits := by
  rw [common_iff] at common ⊢
  simpa only [List.mem_map, same] using common

/-- The stretch holds the bits that every range holds. -/
theorem Common.mem_iff (common : Common ranges bits) (bit : Nat) :
    (bits.low ≤ bit ∧ bit < bits.high) ↔ ∀ range ∈ ranges, range.1 ≤ bit ∧ bit < range.2 := by
  obtain ⟨⟨low_mem, low_greatest⟩, high_mem, high_least⟩ := common_iff.mp common
  constructor
  · intro inside range member
    have := low_greatest range member
    have := high_least range member
    omega
  · intro inside
    obtain ⟨range, member, low_eq⟩ := List.mem_map.mp low_mem
    obtain ⟨other, also_member, high_eq⟩ := List.mem_map.mp high_mem
    have := inside range member
    have := inside other also_member
    omega

/-- One more range meets what those before it have in common. -/
theorem Common.extended (common : Common ranges bits) (low high : Nat) :
    Common (ranges ++ [(low, high)]) (meet low high (some bits)) := by
  cases ranges with
  | nil => cases common.low
  | cons first rest =>
      have low_so_far := Option.some.inj (List.max?_cons'.symm.trans common.low)
      have high_so_far := Option.some.inj (List.min?_cons'.symm.trans common.high)
      constructor
      · rw [List.map_append, List.map_cons, List.cons_append, List.max?_cons', List.foldl_append,
          low_so_far]
        exact congrArg some (Nat.max_comm bits.low low)
      · rw [List.map_append, List.map_cons, List.cons_append, List.min?_cons', List.foldl_append,
          high_so_far]
        exact congrArg some (Nat.min_comm bits.high high)

/-! ## One step -/

/-- Whatever was held, what a range meets of it lies in the range. -/
theorem meet_inside (low high : Nat) (held : Option BitRange) :
    low ≤ (meet low high held).low ∧ (meet low high held).high ≤ high := by
  cases held with
  | none => exact ⟨Nat.le_refl _, Nat.le_refl _⟩
  | some bits => exact ⟨Nat.le_max_left _ _, Nat.min_le_left _ _⟩

/-- Why a range is refused: there is no bit in it, or no bit of those held. -/
def refusal (low high : Nat) : Cause :=
  if high ≤ low then .emptyBits low high else .disjointBits low high

theorem refusal_kind (low high : Nat) : (refusal low high).kind = .range := by
  unfold refusal
  split <;> rfl

/-- The look at the range alone decides only which fault it is. -/
theorem narrow_eq (reference : AddressReference) (low high : Nat) :
    reference.narrow low high =
      if (meet low high reference.bits).low < (meet low high reference.bits).high then
        .ok { reference with bits := some (meet low high reference.bits) }
      else .error (Fault.of (refusal low high)) := by
  obtain ⟨low_le, le_high⟩ := meet_inside low high reference.bits
  unfold narrow refusal
  dsimp only
  by_cases empty : high ≤ low
  · rw [if_pos empty, if_pos empty, if_neg (by omega)]
  · by_cases disjoint : (meet low high reference.bits).high ≤ (meet low high reference.bits).low
    · rw [if_neg empty, if_neg empty, if_pos disjoint, if_neg (by omega)]
    · rw [if_neg empty, if_neg disjoint, if_pos (by omega)]

theorem narrow_ok_iff {reference narrowed : AddressReference} {low high : Nat} :
    reference.narrow low high = .ok narrowed ↔
      (meet low high reference.bits).low < (meet low high reference.bits).high ∧
        narrowed = { reference with bits := some (meet low high reference.bits) } := by
  rw [narrow_eq]
  split
  · rename_i filled
    constructor
    · intro result
      cases result
      exact ⟨filled, rfl⟩
    · rintro ⟨_, rfl⟩
      rfl
  · rename_i empty
    constructor
    · intro result
      cases result
    · rintro ⟨filled, _⟩
      exact absurd filled empty

theorem narrow_error {reference : AddressReference} {low high : Nat} {fault : Fault}
    (failed : reference.narrow low high = .error fault) : fault = Fault.of (refusal low high) := by
  rw [narrow_eq] at failed
  split at failed
  · cases failed
  · cases failed
    rfl

/-- The reference is of the same kind and level as the other one and holds none but its bits. -/
structure Within (inner outer : AddressReference) : Prop where
  kind : inner.kind = outer.kind
  level : inner.level = outer.level
  bits : ∀ held ∈ outer.bits, ∃ kept ∈ inner.bits, held.low ≤ kept.low ∧ kept.high ≤ held.high

theorem Within.refl (reference : AddressReference) : reference.Within reference where
  kind := rfl
  level := rfl
  bits := fun held member => ⟨held, member, Nat.le_refl _, Nat.le_refl _⟩

theorem Within.trans {inner middle outer : AddressReference} (first : inner.Within middle)
    (second : middle.Within outer) : inner.Within outer where
  kind := first.kind.trans second.kind
  level := first.level.trans second.level
  bits := by
    intro held member
    obtain ⟨between, also_member, low_le, le_high⟩ := second.bits held member
    obtain ⟨kept, kept_member, low_le_kept, kept_le_high⟩ := first.bits between also_member
    exact ⟨kept, kept_member, Nat.le_trans low_le low_le_kept, Nat.le_trans kept_le_high le_high⟩

theorem narrow_within {reference narrowed : AddressReference} {low high : Nat}
    (result : reference.narrow low high = .ok narrowed) : narrowed.Within reference := by
  obtain ⟨_, rfl⟩ := narrow_ok_iff.mp result
  refine ⟨rfl, rfl, fun held member => ⟨_, rfl, ?_⟩⟩
  rw [Option.mem_def.mp member]
  exact ⟨Nat.le_max_right _ _, Nat.min_le_right _ _⟩

/-! ## Step after step -/

variable {start : AddressReference}

theorem narrowAll_cons (reference : AddressReference) (range : Nat × Nat)
    (rest : List (Nat × Nat)) :
    reference.narrowAll (range :: rest) =
      reference.narrow range.1 range.2 >>= fun held => held.narrowAll rest :=
  List.foldlM_cons

theorem narrowAll_append (reference : AddressReference) (first rest : List (Nat × Nat)) :
    reference.narrowAll (first ++ rest) =
      reference.narrowAll first >>= fun held => held.narrowAll rest :=
  List.foldlM_append

theorem narrowAll_single (reference : AddressReference) (range : Nat × Nat) :
    reference.narrowAll [range] = reference.narrow range.1 range.2 := by
  rw [narrowAll_cons]
  cases reference.narrow range.1 range.2 <;> rfl

/-- The chain succeeds exactly when the ranges have a bit in common, and then keeps what they
have in common. -/
theorem narrowAll_ok_iff (free : start.bits = none) (common : Common ranges bits)
    {narrowed : AddressReference} :
    start.narrowAll ranges = .ok narrowed ↔
      bits.low < bits.high ∧ narrowed = { start with bits := some bits } := by
  -- from the right, so that what is held before the last range is what the others have in common
  induction ranges using List.reverseRecOn generalizing bits narrowed with
  | nil => cases common.low
  | append_singleton before last ih =>
      obtain ⟨low, high⟩ := last
      by_cases first : before = []
      · subst first
        have alone : bits = meet low high start.bits := by
          rw [free]
          exact common.unique ⟨rfl, rfl⟩
        rw [List.nil_append, narrowAll_single, narrow_ok_iff, alone]
      · obtain ⟨held, held_common⟩ := exists_common first
        have met : bits = meet low high (some held) :=
          common.unique (held_common.extended low high)
        have held_filled : bits.low < bits.high → held.low < held.high := by
          rw [met]
          intro filled
          exact Nat.lt_of_le_of_lt (Nat.le_max_right _ _)
            (Nat.lt_of_lt_of_le filled (Nat.min_le_right _ _))
        simp only [narrowAll_append, narrowAll_single, Except.bind_ok_iff, ih held_common,
          narrow_ok_iff]
        constructor
        · rintro ⟨_, ⟨_, rfl⟩, filled, rfl⟩
          rw [met]
          exact ⟨filled, rfl⟩
        · rintro ⟨filled, rfl⟩
          refine ⟨_, ⟨held_filled filled, rfl⟩, ?_⟩
          rw [met] at filled ⊢
          exact ⟨filled, rfl⟩

/-- A chain that fails has stopped at the first range that leaves no bit. -/
theorem narrowAll_error {fault : Fault} (failed : start.narrowAll ranges = .error fault) :
    ∃ before range after held, ranges = before ++ range :: after ∧
      start.narrowAll before = .ok held ∧ held.narrow range.1 range.2 = .error fault := by
  induction ranges generalizing start with
  | nil => cases failed
  | cons range rest ih =>
      rw [narrowAll_cons] at failed
      cases here : start.narrow range.1 range.2 with
      | error cause =>
          rw [here] at failed
          cases failed
          exact ⟨[], range, rest, start, rfl, rfl, here⟩
      | ok narrowed =>
          rw [here] at failed
          obtain ⟨before, stopped, after, held, rfl, up_to, refused⟩ := ih failed
          refine ⟨range :: before, stopped, after, held, rfl, ?_, refused⟩
          rw [narrowAll_cons, here]
          exact up_to

theorem narrowAll_within {narrowed : AddressReference}
    (result : start.narrowAll ranges = .ok narrowed) : narrowed.Within start := by
  induction ranges generalizing start with
  | nil =>
      cases result
      exact Within.refl narrowed
  | cons range rest ih =>
      rw [narrowAll_cons, Except.bind_ok_iff] at result
      obtain ⟨held, here, later⟩ := result
      exact (ih later).trans (narrow_within here)

/-- An argument of a template file narrows its reference to its ranges and changes nothing. -/
theorem argument_narrows (kind : ReferenceKind) (level : Nat) (ranges : List (Nat × Nat))
    (studio : Studio TemplateFile.Memory) :
    TemplateFile.argument (.address kind level ranges) studio =
      ((narrowAll { kind, level } ranges).map Argument.address, studio) := by
  rw [TemplateFile.argument, Computation.bind_run]
  cases narrowAll { kind, level } ranges with
  | error fault => rfl
  | ok reference => rfl

/-! ## The whole chain -/

/-- Narrowing a reference to ranges one by one amounts to narrowing it once, to the bits that the
ranges have in common. -/
structure Intersects (start : AddressReference) (ranges : List (Nat × Nat)) (bits : BitRange) :
    Prop where
  /-- From the greatest low to the least high. -/
  common : Common ranges bits
  held : ∀ bit, (bits.low ≤ bit ∧ bit < bits.high) ↔
    ∀ range ∈ ranges, range.1 ≤ bit ∧ bit < range.2
  narrowed : ∀ reference, start.narrowAll ranges = .ok reference ↔
    bits.low < bits.high ∧ reference = { start with bits := some bits }
  /-- A failure is that of the first range that leaves no bit. -/
  refused : ∀ fault, start.narrowAll ranges = .error fault → fault.kind = .range ∧
    ∃ before range after reference, ranges = before ++ range :: after ∧
      start.narrowAll before = .ok reference ∧
      reference.narrow range.1 range.2 = .error fault ∧
      fault = Fault.of (refusal range.1 range.2)
  any_order : ∀ others, (∀ range, range ∈ others ↔ range ∈ ranges) →
    ∀ reference, start.narrowAll others = .ok reference ↔ start.narrowAll ranges = .ok reference
  /-- What comes behind a part of the chain only restricts further. -/
  restricts : ∀ before after, ranges = before ++ after →
    (∀ fault, start.narrowAll before = .error fault → start.narrowAll ranges = .error fault) ∧
    ∀ reference, start.narrowAll ranges = .ok reference →
      ∃ earlier, start.narrowAll before = .ok earlier ∧ reference.Within earlier
  in_file : ∀ studio : Studio TemplateFile.Memory,
    TemplateFile.argument (.address start.kind start.level ranges) studio =
      ((start.narrowAll ranges).map Argument.address, studio)

/-- **Narrowing composes to intersection.**  To however many ranges a reference is narrowed one
after another, it succeeds exactly when the greatest low is less than the least high of them all,
and what is left reaches from the one to the other, whatever the order of the ranges and however
often each of them occurs. -/
theorem narrowing_intersects (kind : ReferenceKind) (level : Nat) (ranges : List (Nat × Nat))
    (given : ranges ≠ []) : ∃ bits, Intersects { kind, level } ranges bits := by
  obtain ⟨bits, common⟩ := exists_common given
  have settled : ∀ others, (∀ range, range ∈ others ↔ range ∈ ranges) → ∀ reference,
      narrowAll { kind, level } others = .ok reference ↔
        bits.low < bits.high ∧ reference = { kind, level, bits := some bits } :=
    fun others same reference => narrowAll_ok_iff rfl (common.of_same same)
  have ordered := settled ranges (fun _ => Iff.rfl)
  refine ⟨bits, common, common.mem_iff, ordered, ?_, ?_, ?_, argument_narrows kind level ranges⟩
  · intro fault failed
    obtain ⟨before, range, after, earlier, parts, up_to, here⟩ := narrowAll_error failed
    have refused := narrow_error here
    refine ⟨?_, before, range, after, earlier, parts, up_to, here, refused⟩
    rw [refused]
    exact refusal_kind range.1 range.2
  · intro others same reference
    rw [settled others same, ordered]
  · rintro before after rfl
    constructor
    · intro fault failed
      rw [narrowAll_append, failed]
      rfl
    · intro reference result
      rw [narrowAll_append, Except.bind_ok_iff] at result
      obtain ⟨earlier, first, later⟩ := result
      exact ⟨earlier, first, narrowAll_within later⟩

/-- Ranges up to the largest word, out of order and one of them twice, leave the bits from 16 up
to 64; taken in another order, without the repetition, they leave the same. -/
theorem narrowing_intersects_out_of_order :
    [(0, 4294967295), (8, 64), (16, 4294967295), (8, 64)] ≠ [] ∧
      narrowAll ⟨.entry, 2, none⟩ [(0, 4294967295), (8, 64), (16, 4294967295), (8, 64)] =
        .ok ⟨.entry, 2, some ⟨16, 64⟩⟩ ∧
      narrowAll ⟨.entry, 2, none⟩ [(16, 4294967295), (0, 4294967295), (8, 64)] =
        .ok ⟨.entry, 2, some ⟨16, 64⟩⟩ := by
  obtain ⟨bits, chain⟩ := narrowing_intersects .entry 2
    [(0, 4294967295), (8, 64), (16, 4294967295), (8, 64)] (by decide)
  have same_bits : bits = ⟨16, 64⟩ := chain.common.unique ⟨by decide, by decide⟩
  have narrowed := (chain.narrowed ⟨.entry, 2, some ⟨16, 64⟩⟩).mpr (by simp [same_bits])
  refine ⟨by decide, narrowed, (chain.any_order _ ?_ _).mpr narrowed⟩
  simp only [List.mem_cons, List.not_mem_nil, or_false]
  tauto

end AddressReference
end TestProgram
