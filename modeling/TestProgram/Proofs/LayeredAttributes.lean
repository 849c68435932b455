/-
# TestProgram.Proofs.LayeredAttributes -- what a call gets from the attribute scopes around it

The attributes of a call are those of the scopes in force, laid over each other from the outermost
inwards, with the call's own on top.  Laying tables over each other is no composition of lookups:
a scalar between two tables cuts off the lower one, and a table over a scalar starts afresh.  What
it does is told by paths of keys (`Attribute.at?`): a layer shows a value at a path, or spares what
lies below it, if it has nothing at the path and nothing but tables on the way
(`Attributes.Spares`).  So of two layers the lower one shows through where the upper one spares it
(`at?_layered_iff`), and of a stack a value shows that all layers above it spare
(`at?_layers_iff`).

A table is a list of pairs, and the layers have to be tables in earnest: with their keys in order,
each of them once, at every depth that a path can reach (`Attribute.Ordered`).  What is read from a
file is (`TemplateFile.readAttribute_ordered`), and what a call ends up with is again.
-/
import TestProgram.Proofs.Tables
import TestProgram.Session.Calls
import TestProgram.TemplateFile.Read

namespace TestProgram

set_option autoImplicit false

/-! ## Paths -/

namespace Attribute

/-- What stands at the end of a path of keys. -/
def at? (held : Attribute) : List String → Option Attribute
  | [] => some held
  | key :: rest =>
      held.map?.bind (fun entries => (KeyMap.find? entries key).bind (fun inner => inner.at? rest))

/-- The tables that a path can reach have their keys in order, each of them once. -/
inductive Ordered : Attribute → Prop
  | flat {held : Attribute} (no_table : held.map? = none) : Ordered held
  | table {entries : Attributes} (sorted : KeyMap.Sorted entries)
      (inner : ∀ entry ∈ entries, Ordered entry.2) : Ordered (.map entries)

theorem Ordered.sorted {entries : Attributes} (ordered : (Attribute.map entries).Ordered) :
    KeyMap.Sorted entries := by
  cases ordered with
  | flat no_table => cases no_table
  | table sorted _ => exact sorted

theorem Ordered.find? {entries : Attributes} (ordered : (Attribute.map entries).Ordered)
    {key : String} {held : Attribute} (found : KeyMap.find? entries key = some held) :
    held.Ordered := by
  cases ordered with
  | flat no_table => cases no_table
  | table _ inner => exact inner _ (KeyMap.mem_of_find? found)

/-- No path leads on from what is not a table. -/
theorem at?_flat {held : Attribute} (no_table : held.map? = none) (key : String)
    (rest : List String) : held.at? (key :: rest) = none := by
  rw [at?, no_table]
  rfl

end Attribute

namespace Attributes

def at? (attributes : Attributes) (path : List String) : Option Attribute :=
  (Attribute.map attributes).at? path

theorem at?_cons (attributes : Attributes) (key : String) (rest : List String) :
    attributes.at? (key :: rest) =
      (KeyMap.find? attributes key).bind (fun inner => inner.at? rest) := rfl

/-- Laid over others, the attributes let show what those have at the path: they have nothing there
themselves, and nothing but tables on the way. -/
structure Spares (attributes : Attributes) (path : List String) : Prop where
  nothing : attributes.at? path = none
  passable : ∀ initial held, initial <+: path → initial ≠ path →
    attributes.at? initial = some held → held.map? ≠ none

/-- Attributes spare whatever begins with a key that they do not have. -/
theorem spares_of_missing {attributes : Attributes} {key : String} {rest : List String}
    (missing : KeyMap.find? attributes key = none) : attributes.Spares (key :: rest) := by
  refine ⟨by rw [at?_cons, missing]; rfl, fun initial held before _ there => ?_⟩
  cases initial with
  | nil =>
      cases there
      exact Option.some_ne_none _
  | cons first more =>
      obtain ⟨rfl, _⟩ := List.cons_prefix_cons.mp before
      rw [at?_cons, missing] at there
      cases there

/-- Attributes with a table at the first key spare a path as the table spares the rest of it. -/
theorem spares_cons_iff {attributes entries : Attributes} {key : String} {rest : List String}
    (found : KeyMap.find? attributes key = some (.map entries)) :
    attributes.Spares (key :: rest) ↔ entries.Spares rest := by
  have below : ∀ path, attributes.at? (key :: path) = entries.at? path := by
    intro path
    rw [at?_cons, found]
    rfl
  constructor
  · rintro ⟨nothing, passable⟩
    refine ⟨below rest ▸ nothing, fun initial held before shorter there => ?_⟩
    exact passable (key :: initial) held (List.cons_prefix_cons.mpr ⟨rfl, before⟩)
      (fun same => shorter (List.cons.inj same).2) (below initial ▸ there)
  · rintro ⟨nothing, passable⟩
    refine ⟨(below rest).trans nothing, fun initial held before shorter there => ?_⟩
    cases initial with
    | nil =>
        cases there
        exact Option.some_ne_none _
    | cons first more =>
        obtain ⟨rfl, before_rest⟩ := List.cons_prefix_cons.mp before
        exact passable more held before_rest (fun same => shorter (same ▸ rfl)) (below more ▸ there)

/-- Attributes with anything but a table at the first key spare nothing behind it. -/
theorem not_spares_of_flat {attributes : Attributes} {held : Attribute} {key : String}
    (found : KeyMap.find? attributes key = some held) (no_table : held.map? = none)
    (rest : List String) : ¬ attributes.Spares (key :: rest) := by
  rintro ⟨nothing, passable⟩
  have first : attributes.at? [key] = some held := by
    rw [at?_cons, found]
    rfl
  cases rest with
  | nil =>
      rw [nothing] at first
      cases first
  | cons next more => exact passable [key] held ⟨next :: more, rfl⟩ (by simp) first no_table

/-- What is not a table shows through nowhere below a table. -/
theorem not_at?_of_flat {attributes : Attributes} {held value : Attribute}
    (no_table : held.map? = none) {path : List String} :
    ¬ (held.at? path = some value ∧ attributes.Spares path) := by
  rintro ⟨there, nothing, _⟩
  cases path with
  | nil => cases nothing
  | cons key rest =>
      rw [Attribute.at?_flat no_table] at there
      cases there

end Attributes

/-! ## Two layers -/

theorem KeyMap.find?_eq_none_of_above {α : Type} {table : KeyMap α} {key : String}
    (above : ∀ pair ∈ table, key < pair.1) : table.find? key = none := by
  cases found : table.find? key with
  | none => rfl
  | some value => exact absurd (above _ (mem_of_find? found)) (lt_irrefl key)

namespace Attribute

/-- At each key the upper table decides what is left of the lower one. -/
theorem find?_layer {upper : Attributes} (sorted : KeyMap.Sorted upper) :
    ∀ (lower : Attributes) (key : String), KeyMap.find? (layer lower upper) key =
      ((KeyMap.find? upper key).map (replaced (KeyMap.find? lower key))).or
        (KeyMap.find? lower key) := by
  induction upper with
  | nil =>
      intro lower key
      rw [layer]
      rfl
  | cons pair rest ih =>
      intro lower key
      obtain ⟨first, held⟩ := pair
      obtain ⟨above, sorted_rest⟩ := List.pairwise_cons.mp sorted
      rw [layer, ih sorted_rest, KeyMap.find?]
      by_cases same : key = first
      · subst same
        rw [KeyMap.find?_eq_none_of_above above, KeyMap.find?_insert_self, if_pos rfl]
        rfl
      · rw [KeyMap.find?_insert_of_ne _ _ same, if_neg same]

end Attribute

/-- Of two layers the upper one shows, and the lower one where the upper one spares it. -/
theorem Attributes.at?_layered_iff {value : Attribute} (no_table : value.map? = none)
    {path : List String} : ∀ {lower upper : Attributes}, (Attribute.map upper).Ordered →
      ((Attributes.layered lower upper).at? path = some value ↔
        upper.at? path = some value ∨ (lower.at? path = some value ∧ upper.Spares path)) := by
  -- Two tables at the first key are laid over each other in turn, with the rest of the path.
  induction path with
  | nil =>
      intro lower upper _
      have no_value : ∀ attributes : Attributes, attributes.at? [] ≠ some value := by
        rintro attributes ⟨⟩
        cases no_table
      simp [no_value]
  | cons key rest ih =>
      intro lower upper ordered
      have looked_up := Attribute.find?_layer ordered.sorted lower key
      rw [at?_cons, Attributes.layered, looked_up]
      cases above : KeyMap.find? upper key with
      | none => simp [at?_cons, above, spares_of_missing above]
      | some held =>
          cases held with
          | map entries =>
              rw [spares_cons_iff above, at?_cons, at?_cons, above]
              cases below : KeyMap.find? lower key with
              | none => simp [Attribute.replaced]
              | some inner =>
                  -- Over anything but a table the upper one starts afresh.
                  cases inner with
                  | map inner => exact ih (ordered.find? above)
                  | _ => exact (or_iff_left (not_at?_of_flat rfl)).symm
          | _ =>
              have hidden := not_spares_of_flat above rfl rest
              simp [at?_cons, above, hidden, Attribute.replaced]

/-! ## A stack of layers -/

/-- Of a stack of layers a value shows that all layers above its own spare. -/
theorem Attributes.at?_layers_iff {value : Attribute} (no_table : value.map? = none)
    {path : List String} (layers : List Attributes) :
    (∀ layer ∈ layers, (Attribute.map layer).Ordered) → ∀ lowest : Attributes,
      ((layers.foldl Attributes.layered lowest).at? path = some value ↔
        (∃ below layer above, layers = below ++ layer :: above ∧ layer.at? path = some value ∧
          ∀ upper ∈ above, upper.Spares path) ∨
        (lowest.at? path = some value ∧ ∀ upper ∈ layers, upper.Spares path)) := by
  induction layers with
  | nil => simp
  | cons first rest ih =>
      intro ordered lowest
      rw [List.foldl_cons, ih (fun layer member => ordered layer (List.mem_cons_of_mem _ member)),
        at?_layered_iff no_table (ordered first List.mem_cons_self), List.forall_mem_cons]
      constructor
      · rintro (⟨below, layer, above, rfl, shown, spared⟩ | ⟨here | ⟨under, spares⟩, spared⟩)
        · exact .inl ⟨first :: below, layer, above, rfl, shown, spared⟩
        · exact .inl ⟨[], first, rest, rfl, here, spared⟩
        · exact .inr ⟨under, spares, spared⟩
      · rintro (⟨below, layer, above, cut, shown, spared⟩ | ⟨under, spares, spared⟩)
        · cases below with
          | nil =>
              obtain ⟨rfl, rfl⟩ := List.cons.inj cut
              exact .inr ⟨.inl shown, spared⟩
          | cons lower below =>
              obtain ⟨rfl, rfl⟩ := List.cons.inj cut
              exact .inl ⟨below, layer, above, rfl, shown, spared⟩
        · exact .inr ⟨.inr ⟨under, spares⟩, spared⟩

/-! ## Tables in order -/

namespace Attribute

theorem ordered_insert {entries : Attributes} (ordered : (Attribute.map entries).Ordered)
    (key : String) {held : Attribute} (inner : held.Ordered) :
    (Attribute.map (KeyMap.insert entries key held)).Ordered := by
  refine .table (KeyMap.sorted_insert ordered.sorted key held) (fun entry member => ?_)
  rcases KeyMap.mem_insert member with rfl | before
  · exact inner
  · exact ordered.find? (ordered.sorted.find?_of_mem before)

theorem ordered_layer_of {upper : Attributes}
    (each : ∀ entry ∈ upper, ∀ lower : Option Attribute,
      (∀ held, lower = some held → held.Ordered) → (replaced lower entry.2).Ordered) :
    ∀ {lower : Attributes}, (Attribute.map lower).Ordered →
      (Attribute.map (layer lower upper)).Ordered := by
  induction upper with
  | nil =>
      intro lower ordered
      rwa [layer]
  | cons entry rest ih =>
      intro lower ordered
      obtain ⟨key, held⟩ := entry
      have here := each (key, held) List.mem_cons_self (KeyMap.find? lower key)
        (fun inner found => ordered.find? found)
      rw [layer]
      exact ih (fun entry member => each entry (List.mem_cons_of_mem _ member))
        (ordered_insert ordered key here)

/-- What an attribute in order leaves of another is in order. -/
theorem ordered_replaced {upper : Attribute} (ordered : upper.Ordered) :
    ∀ lower : Option Attribute, (∀ held, lower = some held → held.Ordered) →
      (replaced lower upper).Ordered := by
  induction ordered with
  | @flat held no_table =>
      intro lower _
      cases held with
      | map entries => cases no_table
      | _ =>
          rw [replaced]
          · exact .flat rfl
          · simp
  | table sorted inner ih =>
      intro lower lower_ordered
      rcases lower with _ | ⟨_ | _ | _ | _ | _⟩
      case some.map => exact ordered_layer_of ih (lower_ordered _ rfl)
      all_goals exact .table sorted inner

theorem ordered_layer {lower upper : Attributes} (lower_ordered : (Attribute.map lower).Ordered)
    (upper_ordered : (Attribute.map upper).Ordered) :
    (Attribute.map (layer lower upper)).Ordered := by
  cases upper_ordered with
  | flat no_table => cases no_table
  | table sorted inner =>
      exact ordered_layer_of (fun entry member => ordered_replaced (inner entry member))
        lower_ordered

end Attribute

theorem Attributes.ordered_layers {layers : List Attributes}
    (ordered : ∀ layer ∈ layers, (Attribute.map layer).Ordered) :
    (Attribute.map (layers.foldl Attributes.layered [])).Ordered := by
  refine List.foldlRecOn (motive := fun held => (Attribute.map held).Ordered) layers
    Attributes.layered (.table .nil (by simp)) ?_
  exact fun lower lower_ordered layer member =>
    Attribute.ordered_layer lower_ordered (ordered layer member)

namespace TemplateFile

mutual

/-- What is read from a file is in order, whatever the order there. -/
theorem readAttribute_ordered : ∀ {value : Toml.Value} {held : Attribute},
    readAttribute value = some held → held.Ordered
  | value, held, read => by
      cases value with
      | table span entries =>
          rw [readAttribute] at read
          obtain ⟨made, read_entries, rfl⟩ := Option.map_eq_some_iff.mp read
          exact readEntries_ordered read_entries
      | array span elements =>
          rw [readAttribute] at read
          obtain ⟨items, _, rfl⟩ := Option.map_eq_some_iff.mp read
          exact .flat rfl
      | float => cases read
      | _ =>
          cases read
          exact .flat rfl

theorem readEntries_ordered : ∀ {entries : List (String × Toml.Value)} {table : Attributes},
    readEntries entries = some table → (Attribute.map table).Ordered
  | [], table, read => by
      cases read
      exact .table .nil (by simp)
  | (name, value) :: rest, table, read => by
      rw [readEntries] at read
      obtain ⟨first, read_first, read⟩ := Option.bind_eq_some_iff.mp read
      obtain ⟨others, read_others, read⟩ := Option.bind_eq_some_iff.mp read
      cases read
      exact Attribute.ordered_insert (readEntries_ordered read_others) name
        (readAttribute_ordered read_first)

end

end TemplateFile

/-! ## Calls -/

namespace Session

/-- The attributes that come together in a call: those of the scopes in force, the outermost
first, and its own. -/
def layersOver (session : Session) (call : Call) : List Attributes :=
  session.attributes.reverse ++ [call.attributes]

theorem layered_scopedAttributes (session : Session) (call : Call) :
    Attributes.layered session.scopedAttributes call.attributes =
      (session.layersOver call).foldl Attributes.layered [] := by
  rw [layersOver, List.foldl_append, List.foldl_reverse]
  rfl

/-- The call as it is hung into a block. -/
def storedIn (session : Session) (block : OpenBlock) (call : Call) (location : Location) : Call :=
  { session.completeCall { call with location := some (call.location.getD location) } with
    labels := block.labels ++ call.labels
    outputs := block.outputs ++ call.outputs }

theorem addCall_run {session : Session} {innermost : OpenBlock} {outer : List OpenBlock}
    (inside : session.blocks = innermost :: outer) (call : Call) (location : Location) :
    addCall call location session =
      (.ok (), { session with
        blocks := { innermost with
          children := innermost.children ++ [.leaf (session.storedIn innermost call location)]
          labels := []
          outputs := [] } :: outer }) := by
  unfold addCall Action.locating inBlock
  simp only [inside]
  rfl

theorem addCall_attributes (session : Session) (call : Call) (location : Location) :
    (addCall call location session).2.attributes = session.attributes := by
  obtain ⟨settings, engine, registry, defaults, data, blocks, _⟩ := session
  cases blocks <;> rfl

/-- A call is hung into the innermost block with the attributes of all scopes in force laid over
each other, its own uppermost: a value shows at a path exactly when one layer has it there and all
layers above spare it.  The scopes stay what they were, whether there is a block or not. -/
theorem added_call_binds (session : Session) (call : Call) (location : Location)
    (ordered : ∀ layer ∈ session.layersOver call, (Attribute.map layer).Ordered) :
    (addCall call location session).2.attributes = session.attributes ∧
      ∀ innermost outer, session.blocks = innermost :: outer → ∃ stored : Call,
        addCall call location session =
          (.ok (), { session with
            blocks := { innermost with
              children := innermost.children ++ [.leaf stored], labels := [], outputs := [] } ::
                outer }) ∧
        (Attribute.map stored.attributes).Ordered ∧
        ∀ path value, value.map? = none →
          (stored.attributes.at? path = some value ↔
            ∃ below layer above, session.layersOver call = below ++ layer :: above ∧
              layer.at? path = some value ∧ ∀ upper ∈ above, upper.Spares path) := by
  refine ⟨addCall_attributes session call location, fun innermost outer inside => ?_⟩
  have together := layered_scopedAttributes session call
  refine ⟨_, addCall_run inside call location, ?_, fun path value no_table => ?_⟩
  · change (Attribute.map (Attributes.layered session.scopedAttributes call.attributes)).Ordered
    rw [together]
    exact Attributes.ordered_layers ordered
  · change (Attributes.layered session.scopedAttributes call.attributes).at? path = some value ↔ _
    have nothing_below : Attributes.at? [] path ≠ some value := by
      intro there
      cases path <;> cases there
      cases no_table
    rw [together, Attributes.at?_layers_iff no_table _ ordered]
    simp [nothing_below]

/-- A scalar between two tables cuts off the outer one; what no scope touches shows through all of
them. -/
theorem added_call_binds_cut_off :
    let session : Session :=
      { engine := Engine.ofSeed 0
        blocks := [{ id := BlockId.root, kind := .sequence }]
        attributes :=
          [[("mode", .integer 1)],
            [("mode", .map [("user", .boolean true)])],
            [("rank", .map [("low", .integer 2)])]] }
    let call : Call :=
      { name := "nop", attributes := [("mode", .map [("cached", .boolean false)])] }
    ∃ stored : Call,
      addCall call (.caller "nop" 1 1) session =
        (.ok (), { session with
          blocks := [{ id := BlockId.root, kind := .sequence, children := [.leaf stored] }] }) ∧
      stored.attributes.at? ["rank", "low"] = some (.integer 2) ∧
      stored.attributes.at? ["mode", "cached"] = some (.boolean false) ∧
      stored.attributes.at? ["mode", "user"] = none := by
  intro session call
  have single : ∀ key held, Attribute.Ordered held → (Attribute.map [(key, held)]).Ordered :=
    fun key held inner => .table (List.pairwise_singleton _ _) (by simpa using inner)
  have ordered : ∀ layer ∈ session.layersOver call, (Attribute.map layer).Ordered := by
    simp only [layersOver, session, call, List.reverse_cons, List.reverse_nil, List.nil_append,
      List.cons_append, List.forall_mem_cons]
    exact ⟨single _ _ (single _ _ (.flat rfl)), single _ _ (single _ _ (.flat rfl)),
      single _ _ (.flat rfl), single _ _ (single _ _ (.flat rfl)), by simp⟩
  obtain ⟨_, stores⟩ := added_call_binds session call (.caller "nop" 1 1) ordered
  obtain ⟨stored, run, _, binds⟩ := stores _ _ rfl
  refine ⟨stored, run, ?_, ?_, ?_⟩
  · refine (binds _ _ rfl).mpr ⟨[], [("rank", .map [("low", .integer 2)])],
      [[("mode", .map [("user", .boolean true)])], [("mode", .integer 1)], call.attributes],
      rfl, rfl, ?_⟩
    simp only [List.forall_mem_cons]
    exact ⟨Attributes.spares_of_missing rfl, Attributes.spares_of_missing rfl,
      Attributes.spares_of_missing rfl, by simp⟩
  · exact (binds _ _ rfl).mpr ⟨_, _, [], rfl, rfl, by simp⟩
  · cases run
    rfl

end Session
end TestProgram
