/-
# TestProgram.Proofs.Repetition -- which copy a reference means when a block is repeated

A free block that starts a child again puts several copies of one stream into a sequence, with
calls of its other children between them (`copies`).  All copies declare the same names in the
same scope, and only distance tells their declarations apart: a reference means the nearest
(`nearest_not_nearer`), which is its own copy's, or that of the copy before or behind.

`repeated_reference_bound_iff` gives the exact condition for its own: the way to the declaration
within the copy must not be longer than the way to that of the neighbour (`OwnNearest`).
`long_loop_left` is a loop that is too long for it, whose jump leads into the next copy.
-/
import TestProgram.Expansion
import TestProgram.Proofs.Composition
import TestProgram.Proofs.Placement
import TestProgram.Proofs.Resolution

namespace TestProgram

set_option autoImplicit false

/-! ## The nearest declaration -/

namespace LabelIndex

theorem nearer_iff {position first second : Nat} :
    nearer position first second = true ↔
      distance position first < distance position second ∨
        (distance position first = distance position second ∧ first ≤ position ∧
          position < second) := by
  simp [nearer, and_assoc]

/-- Of two places one is nearer. -/
theorem nearer_total {position first second : Nat} (apart : first ≠ second) :
    nearer position first second = true ∨ nearer position second first = true := by
  rw [nearer_iff, nearer_iff]
  unfold distance
  omega

theorem nearer_trans_not {position first second third : Nat}
    (here : ¬ nearer position first second = true)
    (there : ¬ nearer position second third = true) : ¬ nearer position first third = true := by
  rw [nearer_iff] at *
  unfold distance at *
  omega

theorem nearer_asymm {position first second : Nat} (nearer_is : nearer position first second = true) :
    ¬ nearer position second first = true := by
  rw [nearer_iff] at *
  unfold distance at *
  omega

/-- No candidate is nearer than the nearest. -/
theorem nearest_not_nearer {position : Nat} {candidates : List (Nat × PlacedLabel)} :
    ∀ {found : Nat × PlacedLabel}, nearest position candidates = some found →
      ∀ other ∈ candidates, ¬ nearer position other.1 found.1 = true := by
  induction candidates with
  | nil =>
      intro found nearest_is
      cases nearest_is
  | cons candidate rest ih =>
      intro found nearest_is other member
      rw [nearest] at nearest_is
      split at nearest_is
      · rename_i nothing
        cases nearest_is
        rcases List.mem_cons.mp member with rfl | later
        · exact fun nearer_is => nearer_asymm nearer_is nearer_is
        · obtain ⟨_, there⟩ := exists_nearest position later
          rw [nothing] at there
          cases there
      · rename_i best there
        split at nearest_is
        · rename_i closer
          cases nearest_is
          rcases List.mem_cons.mp member with rfl | later
          · exact nearer_asymm closer
          · exact ih there other later
        · rename_i not_closer
          cases nearest_is
          rcases List.mem_cons.mp member with rfl | later
          · exact fun nearer_is => nearer_asymm nearer_is nearer_is
          · exact nearer_trans_not (ih there other later) not_closer

end LabelIndex

namespace Repetition

/-! ## Copies -/

section Copies

variable {α : Type} {body : List α} {gaps : List (List α)} {rest : List α}

/-- A copy of the body behind each of the gaps, and what follows. -/
def copies (body : List α) (gaps : List (List α)) (rest : List α) : List α :=
  gaps.flatMap (fun gap => gap ++ body) ++ rest

/-- Where a copy begins, when each is so long. -/
def copyStart (length : Nat) : List (List α) → Nat → Nat
  | [], _ => 0
  | gap :: _, 0 => gap.length
  | gap :: gaps, number + 1 => gap.length + length + copyStart length gaps number

theorem copies_cons (gap : List α) :
    copies body (gap :: gaps) rest = gap ++ (body ++ copies body gaps rest) := by
  simp [copies]

theorem getElem?_copies {offset : Nat} (inside : offset < body.length) :
    ∀ {gaps : List (List α)} {number : Nat}, number < gaps.length →
      (copies body gaps rest)[copyStart body.length gaps number + offset]? = body[offset]? := by
  intro gaps
  induction gaps with
  | nil =>
      intro number within
      cases within
  | cons gap gaps ih =>
      intro number within
      rw [copies_cons]
      cases number with
      | zero =>
          rw [copyStart, List.getElem?_append_right (by omega), List.getElem?_append_left (by omega)]
          congr 1
          omega
      | succ number =>
          rw [← ih (show number < gaps.length by simpa using within), copyStart,
            List.getElem?_append_right (by omega), List.getElem?_append_right (by omega)]
          congr 1
          omega

/-- What stands anywhere is in a copy, in a gap or behind the copies. -/
theorem exists_copy {item : α} :
    ∀ {gaps : List (List α)} {place : Nat}, (copies body gaps rest)[place]? = some item →
      item ∈ gaps.flatten ++ rest ∨
        ∃ number offset, number < gaps.length ∧ offset < body.length ∧
          place = copyStart body.length gaps number + offset ∧ body[offset]? = some item := by
  intro gaps
  induction gaps with
  | nil =>
      intro place found
      exact .inl (by simpa [copies] using List.mem_of_getElem? found)
  | cons gap gaps ih =>
      intro place found
      rw [copies_cons] at found
      by_cases in_gap : place < gap.length
      · rw [List.getElem?_append_left in_gap] at found
        exact .inl (by simp [List.mem_of_getElem? found])
      rw [List.getElem?_append_right (by omega)] at found
      by_cases in_body : place - gap.length < body.length
      · rw [List.getElem?_append_left in_body] at found
        exact .inr ⟨0, place - gap.length, by simp, in_body, by rw [copyStart]; omega, found⟩
      rw [List.getElem?_append_right (by omega)] at found
      rcases ih found with elsewhere | ⟨number, offset, within, inside, same, there⟩
      · exact .inl (by simpa using .inr (by simpa using elsewhere))
      · refine .inr ⟨number + 1, offset, by simpa using within, inside, ?_, there⟩
        rw [copyStart]
        omega

/-- The next copy begins behind this one and the gap between them. -/
theorem copyStart_succ (length : Nat) {gap : List α} :
    ∀ {gaps : List (List α)} {number : Nat}, gaps[number + 1]? = some gap →
      copyStart length gaps (number + 1) = copyStart length gaps number + length + gap.length := by
  intro gaps
  induction gaps with
  | nil =>
      intro number found
      cases found
  | cons first gaps ih =>
      intro number found
      rw [List.getElem?_cons_succ] at found
      cases number with
      | zero =>
          cases gaps with
          | nil => cases found
          | cons second gaps =>
              cases found
              simp only [copyStart]
      | succ number =>
          rw [copyStart, ih found, copyStart]
          omega

/-- Copies follow each other in the order of their numbers. -/
theorem copyStart_le (length : Nat) {gaps : List (List α)} {first : Nat} :
    ∀ {second : Nat}, first ≤ second → second < gaps.length →
      copyStart length gaps first ≤ copyStart length gaps second := by
  intro second ordered
  induction ordered with
  | refl => exact fun _ => Nat.le_refl _
  | @step second _ ih =>
      intro within
      have before := ih (by omega)
      rw [copyStart_succ length (List.getElem?_eq_getElem within)]
      omega

/-! ## Distance -/

/-- The way from an item of a copy to one of the same copy is not longer than the way to that
of the next copy, or the copy before; of two as far the one that is not behind counts. -/
def OwnNearest (length : Nat) (gaps : List (List α)) (number declared referring : Nat) : Prop :=
  if declared ≤ referring then
    ∀ gap, gaps[number + 1]? = some gap → 2 * (referring - declared) ≤ length + gap.length
  else
    number = 0 ∨ ∀ gap, gaps[number]? = some gap → 2 * (declared - referring) < length + gap.length

section Nearest

open LabelIndex (nearer nearer_iff distance)

variable {length number declared referring copy : Nat} (declared_in : declared < length)
  (referring_in : referring < length) (number_is : number < gaps.length) (copy_is : copy < gaps.length)
  (nearest : ∀ other, other < gaps.length →
    ¬ nearer (copyStart length gaps number + referring) (copyStart length gaps other + declared)
      (copyStart length gaps copy + declared) = true)

include declared_in referring_in number_is copy_is nearest

/-- The nearest of the same item's copies is that of the own copy or of a neighbour. -/
theorem nearest_copy_beside : copy = number ∨ copy = number + 1 ∨ copy + 1 = number := by
  by_contra far
  by_cases behind : number + 1 < copy
  · -- the next copy lies on the way
    have there : gaps[number + 1]? = some gaps[number + 1] := List.getElem?_eq_getElem (by omega)
    have next := copyStart_succ length there
    have later : copyStart length gaps (number + 1 + 1) ≤ copyStart length gaps copy :=
      copyStart_le length (by omega) copy_is
    have after_next := copyStart_succ length
      (List.getElem?_eq_getElem (show number + 1 + 1 < gaps.length by omega))
    have closer := nearest (number + 1) (by omega)
    rw [nearer_iff] at closer
    unfold distance at closer
    omega
  · -- the copy before lies on the way
    obtain ⟨previous, rfl⟩ : ∃ previous, number = previous + 1 := ⟨number - 1, by omega⟩
    have there : gaps[previous + 1]? = some gaps[previous + 1] := List.getElem?_eq_getElem number_is
    have next := copyStart_succ length there
    have earlier : copyStart length gaps (copy + 1) ≤ copyStart length gaps previous :=
      copyStart_le length (by omega) (by omega)
    have after_copy := copyStart_succ length
      (List.getElem?_eq_getElem (show copy + 1 < gaps.length by omega))
    have closer := nearest previous (by omega)
    rw [nearer_iff] at closer
    unfold distance at closer
    omega

theorem nearest_copy_own_iff : copy = number ↔ OwnNearest length gaps number declared referring := by
  unfold OwnNearest
  constructor
  · rintro rfl
    split
    · intro gap there
      have within := (List.getElem?_eq_some_iff.mp there).1
      have next := copyStart_succ length there
      have closer := nearest (copy + 1) within
      rw [nearer_iff] at closer
      unfold distance at closer
      omega
    · cases copy with
      | zero => exact .inl rfl
      | succ previous =>
          refine .inr (fun gap there => ?_)
          have next := copyStart_succ length there
          have closer := nearest previous (by omega)
          rw [nearer_iff] at closer
          unfold distance at closer
          omega
  · intro own
    have closer := nearest number number_is
    rw [nearer_iff] at closer
    unfold distance at closer
    rcases nearest_copy_beside declared_in referring_in number_is copy_is nearest with
      same | rfl | rfl
    · exact same
    · have there : gaps[number + 1]? = some gaps[number + 1] := List.getElem?_eq_getElem copy_is
      have next := copyStart_succ length there
      split at own
      · have near := own _ there
        omega
      · omega
    · have there : gaps[copy + 1]? = some gaps[copy + 1] := List.getElem?_eq_getElem number_is
      have next := copyStart_succ length there
      split at own
      · omega
      · rcases own with first | near
        · omega
        · have := near _ there
          omega

end Nearest
end Copies

/-! ## Labels of the copies -/

open LabelNames (plainNames placed? mem_declarations_finalized)

theorem plainNames_append (first second : List Label) :
    plainNames (first ++ second) = plainNames first ++ plainNames second := by
  simp [plainNames]

/-- A name is not counted more often than it is declared. -/
theorem count_plainNames_le (name : String) (labels : List Label) :
    (plainNames labels).count name ≤ (labels.map Label.name).count (.named name) := by
  induction labels with
  | nil => simp [plainNames]
  | cons label rest ih =>
      obtain ⟨name_is, isGlobal, isWeak, scope⟩ := label
      rw [LabelNames.plainNames_cons, List.count_append, List.map_cons, List.count_cons]
      cases name_is with
      | numeric slot =>
          simp only [Label.role, Role.plain?, Option.toList_none, List.count_nil]
          omega
      | named other =>
          cases isWeak <;> cases isGlobal <;>
            simp only [Label.role, Role.plain?, Option.toList_none, Option.toList_some,
              List.count_nil, List.count_singleton, beq_iff_eq, LabelName.named.injEq,
              Bool.false_eq_true, ↓reduceIte] <;> omega

/-- The calls of a block whose labels are all local, no name declared twice. -/
structure Plain (calls : List Call) : Prop where
  localOnly : ∀ label ∈ calls.flatMap Call.labels, label.isGlobal = false ∧ label.isWeak = false
  once : ∀ name, ((calls.flatMap Call.labels).map Label.name).count (.named name) ≤ 1

/-- A label of the call at this place, behind some others of the call. -/
def DeclaredAt (calls : List Call) (offset : Nat) (earlier : List Label) (label : Label) : Prop :=
  ∃ call later, calls[offset]? = some call ∧ call.labels = earlier ++ label :: later

theorem DeclaredAt.cut_all {calls : List Call} {offset : Nat} {earlier : List Label}
    {label : Label} (declared : DeclaredAt calls offset earlier label) :
    ∃ behind, calls.flatMap Call.labels =
      ((calls.take offset).flatMap Call.labels ++ earlier) ++ label :: behind := by
  obtain ⟨call, later, there, cut⟩ := declared
  obtain ⟨inside, rfl⟩ := List.getElem?_eq_some_iff.mp there
  refine ⟨later ++ (calls.drop (offset + 1)).flatMap Call.labels, ?_⟩
  conv_lhs => rw [← List.take_append_drop offset calls, List.drop_eq_getElem_cons inside]
  rw [List.flatMap_append, List.flatMap_cons, cut]
  simp

section Declared

variable {calls : List Call} (plain : Plain calls) {offset : Nat} {earlier : List Label}
  {label : Label} {name : String} (declared : DeclaredAt calls offset earlier label)
  (named : label.name = .named name)

include plain declared named

theorem Plain.role : label.role = .plain name := by
  obtain ⟨behind, cut⟩ := declared.cut_all
  obtain ⟨not_global, strong⟩ := plain.localOnly label (by simp [cut])
  simp [Label.role, named, not_global, strong]

/-- The name is declared here and nowhere before. -/
theorem Plain.count : (plainNames ((calls.take offset).flatMap Call.labels)).count name = 0 ∧
    (plainNames earlier).count name = 0 ∧
    (plainNames (calls.flatMap Call.labels)).count name = 1 := by
  have role := plain.role declared named
  obtain ⟨behind, cut⟩ := declared.cut_all
  have once := Nat.le_trans (count_plainNames_le name _) (plain.once name)
  have here : (plainNames (label :: behind)).count name = 1 + (plainNames behind).count name := by
    simp [LabelNames.plainNames_cons, role, Role.plain?, Nat.add_comm]
  have all : (plainNames (calls.flatMap Call.labels)).count name =
      (plainNames ((calls.take offset).flatMap Call.labels)).count name +
        (plainNames earlier).count name + (1 + (plainNames behind).count name) := by
    rw [cut, plainNames_append, plainNames_append, List.count_append, List.count_append, here]
  omega

theorem Plain.offset_unique {other : Nat} {before : List Label} {second : Label}
    (also_declared : DeclaredAt calls other before second) (also_named : second.name = .named name) :
    other = offset := by
  have not_before : ∀ {first last : Nat} {leading trailing : List Label} {one two : Label},
      DeclaredAt calls first leading one → one.name = .named name →
      DeclaredAt calls last trailing two → two.name = .named name → ¬ first < last := by
    intro first last leading trailing one two here here_named there there_named before_it
    have none_before := (plain.count there there_named).1
    have ⟨call, later, found, cut⟩ := here
    have listed : call ∈ calls.take last :=
      List.mem_of_getElem? (by rw [List.getElem?_take_of_lt before_it, found])
    refine List.count_eq_zero.mp none_before (List.mem_filterMap.mpr ⟨one, ?_, ?_⟩)
    · exact List.mem_flatMap.mpr ⟨call, listed, by simp [cut]⟩
    · rw [plain.role here here_named]
      rfl
  have not_less := not_before also_declared also_named declared named
  have not_more := not_before declared named also_declared also_named
  omega

end Declared

/-- Before an item of a copy a name occurs once for each copy before it, and as often as before
the item in the copy itself. -/
theorem count_copies {calls : List Call} (rest : List Call) (name : String) {offset : Nat}
    (inside : offset ≤ calls.length) :
    ∀ {gaps : List (List Call)} {number : Nat}, number < gaps.length →
      (∀ call ∈ gaps.flatten, call.labels = []) →
      (plainNames (((copies calls gaps rest).take
        (copyStart calls.length gaps number + offset)).flatMap Call.labels)).count name =
        number * (plainNames (calls.flatMap Call.labels)).count name +
          (plainNames ((calls.take offset).flatMap Call.labels)).count name := by
  intro gaps
  induction gaps with
  | nil =>
      intro number within
      cases within
  | cons gap gaps ih =>
      intro number within silent
      have no_labels : gap.flatMap Call.labels = [] :=
        List.flatMap_eq_nil_iff.mpr (fun call member => silent call (by simp [member]))
      rw [copies_cons]
      cases number with
      | zero =>
          rw [copyStart, List.take_length_add_append, List.take_append_of_le_length inside,
            List.flatMap_append, no_labels]
          simp
      | succ number =>
          have later := ih (show number < gaps.length by simpa using within)
            (fun call member => silent call (by simp [member]))
          rw [copyStart, Nat.add_assoc, Nat.add_assoc, List.take_length_add_append,
            List.take_length_add_append, List.flatMap_append, List.flatMap_append, no_labels,
            List.nil_append, plainNames_append, List.count_append, later, Nat.add_one_mul]
          omega

/-- A stream that repeats the calls of a block, with calls without labels between the copies. -/
structure Repeats (calls : List Call) (gaps : List (List Call)) (rest : List Call)
    (stream : Stream Call) : Prop where
  emissions : stream.emissions = copies calls gaps rest
  silent : ∀ call ∈ gaps.flatten ++ rest, call.labels = []

section Copied

variable {calls rest : List Call} {gaps : List (List Call)} {stream : Stream Call}
  (repeats : Repeats calls gaps rest stream) (plain : Plain calls) {name : String}

include repeats plain

/-- A label of a copy is printed with the number of the copy. -/
theorem Repeats.printed {strong : List String} {number offset : Nat} {earlier : List Label}
    {label : Label} (within : number < gaps.length) (declared : DeclaredAt calls offset earlier label)
    (named : label.name = .named name) :
    placed? strong ((stream.emissions.take
      (copyStart calls.length gaps number + offset)).flatMap Call.labels ++ earlier) label =
        some ⟨label, Ledger.suffixed name number⟩ := by
  have ⟨call, _, there, _⟩ := declared
  have inside := (List.getElem?_eq_some_iff.mp there).1
  obtain ⟨none_before, none_beside, one⟩ := plain.count declared named
  have counted := count_copies rest name (Nat.le_of_lt inside) within
    (fun call member => repeats.silent call (by simp [member]))
  rw [none_before, one] at counted
  rw [placed?, plain.role declared named, repeats.emissions]
  simp only [plainNames_append, List.count_append, counted, none_beside, Nat.mul_one, Nat.add_zero]

section Sight

variable {offset : Nat} {earlier : List Label} {label : Label}
  (declared : DeclaredAt calls offset earlier label) (named : label.name = .named name)
  {scope : BlockId} {engine after : Engine} {sequence : Sequence}
  (run : finalize stream engine = (.ok sequence, after))

include declared named run

/-- Every copy declares the name. -/
theorem Repeats.visible (encloses : label.scope.encloses scope = true) {number : Nat}
    (within : number < gaps.length) :
    (copyStart calls.length gaps number + offset,
      (⟨label, Ledger.suffixed name number⟩ : PlacedLabel)) ∈
        LabelIndex.visible (.named name scope) sequence := by
  have ⟨call, later, there, cut⟩ := declared
  have inside := (List.getElem?_eq_some_iff.mp there).1
  refine List.mem_filter.mpr ⟨(mem_declarations_finalized run).mpr ?_, by simp [encloses, named,
    LabelReference.scope]⟩
  refine ⟨call, earlier, label, later, ?_, cut, repeats.printed plain within declared named⟩
  rw [repeats.emissions, getElem?_copies inside within, there]

/-- Whatever declares the name in sight is the same label of some copy. -/
theorem Repeats.of_visible {place : Nat} {placed : PlacedLabel}
    (seen : (place, placed) ∈ LabelIndex.visible (.named name scope) sequence) :
    ∃ number, number < gaps.length ∧ place = copyStart calls.length gaps number + offset ∧
      placed.rendered = Ledger.suffixed name number := by
  obtain ⟨listed, in_sight⟩ := List.mem_filter.mp seen
  have named_too : placed.label.name = .named name := by
    simpa using (Bool.and_eq_true_iff.mp in_sight).2
  obtain ⟨call, before, other, later, there, cut, kept⟩ := (mem_declarations_finalized run).mp listed
  rw [LabelNames.placed?_label kept] at named_too
  rw [repeats.emissions] at there
  rcases exists_copy there with elsewhere | ⟨number, inside, within, _, rfl, found⟩
  · rw [repeats.silent call elsewhere] at cut
    simp at cut
  · have also_declared : DeclaredAt calls inside before other := ⟨call, later, found, cut⟩
    obtain rfl := plain.offset_unique declared named also_declared named_too
    rw [repeats.printed plain within also_declared named_too] at kept
    cases kept
    exact ⟨number, within, rfl, rfl⟩

end Sight
end Copied

/-! ## The stream of a sequence block -/

section Own

open Expansion (expand expandAll expand_block_ok mem_of_lookup)

variable {α : Type}

theorem expandAll_leaves (registry : Registry α) (calls : List α) (engine : Engine) :
    expandAll registry (calls.map .leaf) engine =
      (.ok (calls.map (fun call => [Stream.single call])), engine) := by
  induction calls with
  | nil => rfl
  | cons call rest ih =>
      rw [List.map_cons, expandAll]
      refine Computation.bind_ok_iff.mpr ⟨_, engine, rfl, ?_⟩
      exact Computation.bind_ok_iff.mpr ⟨_, engine, ih, rfl⟩

theorem emissions_singles (calls : List α) :
    (Stream.concat (calls.map (fun call => [Stream.single call])).flatten).emissions = calls := by
  rw [Stream.emissions, Expansion.concat_units, Expansion.flatten_units]
  induction calls with
  | nil => rfl
  | cons call rest ih =>
      rw [List.map_cons, List.flatten_cons, List.flatMap_append, ih]
      rfl

theorem shuffle_single (stream : Stream α) : Draw.Always (Draw.shuffle [stream]) (· = [stream]) :=
  (Draw.shuffle_perm [stream]).mono (fun _ same => List.perm_singleton.mp same)

/-- What happens to the streams of a block leaves a single one as it is. -/
theorem finishing_single {strategies : StrategySet}
    {finish : List (Stream α) → Draw (List (Stream α))}
    (found : Expansion.finishing Strategy.builtins strategies = .ok finish) (stream : Stream α) :
    Draw.Always (finish [stream]) (· = [stream]) := by
  obtain ⟨rearrange, rearranges, found⟩ := Except.bind_ok_iff.mp found
  obtain ⟨obfuscate, obfuscates, found⟩ := Except.bind_ok_iff.mp found
  cases found
  have leaves := Strategy.builtins_lawful.obfuscators _ (mem_of_lookup obfuscates)
  have kept : Draw.Always (rearrange [stream]) (· = [stream]) := by
    rcases Strategy.rearranger_cases rearranges with ⟨rfl, _⟩ | ⟨rfl, _⟩ | ⟨rfl, _⟩
    · exact Draw.always_pure rfl
    · refine Draw.always_pure ?_
      have same : Stream.concat [stream] = stream := Stream.ext (by simp [Stream.concat])
      simp [Strategy.joined, same]
    · exact shuffle_single stream
  refine Draw.always_bind kept (fun rearranged same => ?_)
  subst same
  refine (Draw.always_mapM (fun other _ => leaves other)).mono (fun made each => ?_)
  rw [← List.forall₂_eq_eq_eq]
  exact each.flip

/-- A sequence block of calls has one stream, and this emits the calls. -/
theorem sequence_expands {info : BlockInfo} (sequential : info.kind = .sequence) {calls : List α}
    {engine after : Engine} {streams : List (Stream α)}
    (expanded : expand Strategy.builtins (.block info (calls.map .leaf)) engine =
      (.ok streams, after)) :
    ∀ own ∈ streams, own.emissions = calls := by
  obtain ⟨compose, finish, alternatives, middle, random, composed, found, further, rfl⟩ :=
    expand_block_ok expanded
  rw [sequential] at composed
  cases composed
  rw [expandAll_leaves] at further
  cases further
  intro own member
  have single : (finish [Stream.concat (calls.map (fun call => [Stream.single call])).flatten]
      random).1 = [_] := finishing_single found _ random
  change own ∈ (finish [_] random).1 at member
  rw [single] at member
  obtain rfl := List.mem_singleton.mp member
  exact emissions_singles calls

end Own

/-! ## References -/

/-- **Which copy a reference means.**  Let a stream repeat the calls of a sequence block whose
labels are local, no name twice, with nothing but calls without labels between the copies.  A
reference in one copy to a label of the block is bound to that label in a copy, printed with
the copy's number.  This is the copy of the reference exactly when the label is not nearer in
the neighbouring one (`OwnNearest`), which it is otherwise. -/
theorem repeated_reference_bound_iff (info : BlockInfo) (sequential : info.kind = .sequence)
    (calls : List Call) (before expanded : Engine) (streams : List (Stream Call))
    (expands : Expansion.expand Strategy.builtins (.block info (calls.map .leaf)) before =
      (.ok streams, expanded))
    (own : Stream Call) (own_is : own ∈ streams) (plain : Plain calls)
    (gaps : List (List Call)) (rest : List Call) (stream : Stream Call)
    (repeats : Repeats own.emissions gaps rest stream) (engine after : Engine) (sequence : Sequence)
    (run : finalize stream engine = (.ok sequence, after)) (index : LabelIndex) (phase : PhaseKind)
    (place number : Nat) (within : number < gaps.length) (declared referring : Nat)
    (referring_in : referring < calls.length) (call : Call) (there : calls[declared]? = some call)
    (label : Label) (listed : label ∈ call.labels) (name : String)
    (named : label.name = .named name) (scope : BlockId)
    (encloses : label.scope.encloses scope = true) :
    ∃ copy, copy < gaps.length ∧ (copy = number ∨ copy = number + 1 ∨ copy + 1 = number) ∧
      (copy = number ↔ OwnNearest calls.length gaps number declared referring) ∧
      index.find? phase place sequence (copyStart calls.length gaps number + referring)
        (.named name scope) = some ⟨Ledger.suffixed name copy,
          .code phase place (copyStart calls.length gaps copy + declared)⟩ ∧
      ∀ results line bound, index.resolve phase place sequence = .ok results →
        results[copyStart calls.length gaps number + referring]? = some line →
        .label (.named name scope) bound ∈ line.operands →
        bound = some ⟨Ledger.suffixed name copy,
          .code phase place (copyStart calls.length gaps copy + declared)⟩ := by
  rw [sequence_expands sequential expands own own_is] at repeats
  obtain ⟨earlier, later, cut⟩ := List.append_of_mem listed
  have declares : DeclaredAt calls declared earlier label := ⟨call, later, there, cut⟩
  have declared_in := (List.getElem?_eq_some_iff.mp there).1
  have own_seen := repeats.visible plain declares named run encloses within
  obtain ⟨⟨found, placed⟩, nearest_is⟩ := LabelIndex.exists_nearest
    (copyStart calls.length gaps number + referring) own_seen
  obtain ⟨copy, copy_is, rfl, printed⟩ := repeats.of_visible plain declares named run
    (LabelIndex.nearest_mem nearest_is)
  have nearest := fun other (other_is : other < gaps.length) =>
    LabelIndex.nearest_not_nearer nearest_is _
      (repeats.visible plain declares named run encloses other_is)
  have meant : index.find? phase place sequence (copyStart calls.length gaps number + referring)
      (.named name scope) = some ⟨Ledger.suffixed name copy,
        .code phase place (copyStart calls.length gaps copy + declared)⟩ := by
    rw [LabelIndex.find?, LabelIndex.local?]
    simp only [nearest_is, printed]
  refine ⟨copy, copy_is, ?_, ?_, meant, ?_⟩
  · exact nearest_copy_beside declared_in referring_in within copy_is nearest
  · exact nearest_copy_own_iff declared_in referring_in within copy_is nearest
  · intro results line bound resolved here refers
    obtain ⟨bound_to, rfl, same⟩ := (LabelIndex.resolve_ok resolved).2 _ line _ bound here refers
    rw [← same, meant]

/-- A call with a label, some other calls, and a jump to the label. -/
def loop (between : List String) : List Call :=
  [{ name := "start", labels := [{ name := .named "loop", scope := ⟨[0, 0]⟩ }] }]
    ++ between.map (fun name => ({ name := name } : Call))
    ++ [{ name := "jump", arguments := [.label (.named "loop" ⟨[0, 0]⟩)] }]

def loopInfo : BlockInfo := { id := ⟨[0, 0]⟩, kind := .sequence }

theorem plain_loop (between : List String) : Plain (loop between) := by
  have labels : (loop between).flatMap Call.labels =
      [{ name := .named "loop", scope := ⟨[0, 0]⟩ }] := by
    simp [loop, List.flatMap_map]
  refine ⟨?_, fun name => ?_⟩
  · rw [labels]
    decide
  · rw [labels]
    exact Nat.le_trans List.count_le_length (by decide)

/-- A loop beside an iteration of two calls, so that it is started twice. -/
def loopBeside (between : List String) : Tree Call :=
  .block { id := BlockId.root, kind := .sequence }
    [.block { id := ⟨[0]⟩, kind := .free }
      [.block loopInfo ((loop between).map .leaf),
       .block { id := ⟨[0, 1]⟩, kind := .iterate }
        [.leaf { name := "first" }, .leaf { name := "second" }]]]

/-- The two copies of the loop, each before its turn of the iteration. -/
def startedTwice (between : List String) : Stream Call :=
  Stream.ofUnits ((copies (loop between) [[], [{ name := "first" }]] [{ name := "second" }]).map
    (fun call => [call]))

theorem startedTwice_repeats (between : List String) :
    Repeats (loop between) [[], [{ name := "first" }]] [{ name := "second" }]
      (startedTwice between) where
  emissions := by
    have filled : ∀ calls : List Call, (calls.map (fun call => [call])).filter
        (fun unit => !unit.isEmpty) = calls.map (fun call => [call]) := fun calls =>
      List.filter_eq_self.mpr (by simp)
    change (List.filter _ _).flatten = _
    rw [filled, ← List.flatMap_def, List.flatMap_singleton']
  silent := by simp

theorem repeated_reference_bound_short :
    ∃ sequence after,
      finalize (startedTwice []) (Engine.ofSeed 1) = (.ok sequence, after) ∧
      ({} : LabelIndex).find? .main 0 sequence 1 (.named "loop" ⟨[0, 0]⟩) =
        some ⟨"loop", .code .main 0 0⟩ := by
  refine ⟨_, _, rfl, ?_⟩
  obtain ⟨copy, _, _, own_iff, meant, _⟩ := repeated_reference_bound_iff loopInfo rfl (loop [])
    (Engine.ofSeed 1) _ _ rfl (Stream.ofUnits ((loop []).map (fun call => [call])))
    (List.mem_singleton.mpr rfl) (plain_loop []) _ _ (startedTwice []) (startedTwice_repeats [])
    (Engine.ofSeed 1) _ _ rfl {} .main 0 0 (by decide) 0 1 (by decide) _ rfl _
    List.mem_cons_self "loop" rfl ⟨[0, 0]⟩ (by decide)
  have own : copy = 0 := own_iff.mpr (by
    rintro gap found
    cases found
    decide)
  subst own
  exact meant

/-- The jump at the end of a loop of four calls leads into the next copy of the loop. -/
theorem long_loop_left :
    Plain (loop ["middle", "last"]) ∧
    Repeats (loop ["middle", "last"]) [[], [{ name := "first" }]] [{ name := "second" }]
      (startedTwice ["middle", "last"]) ∧
    ∃ expanded sequence after results,
      Expansion.expand Strategy.builtins (loopBeside ["middle", "last"]) (Engine.ofSeed 1) =
        (.ok [startedTwice ["middle", "last"]], expanded) ∧
      finalize (startedTwice ["middle", "last"]) expanded = (.ok sequence, after) ∧
      ({} : LabelIndex).resolve .main 0 sequence = .ok results ∧
      (results[3]?).map Instruction.operands =
        some [.label (.named "loop" ⟨[0, 0]⟩) (some ⟨"loop_1", .code .main 0 5⟩)] :=
  ⟨plain_loop _, startedTwice_repeats _, _, _, _, _, rfl, rfl, rfl, rfl⟩

end Repetition
end TestProgram
