/-
# TestProgram.Proofs.Registration -- what the tables of an index hold

Both tables of an index grow one entry at a time.  `Gains` says what a table holds after it
has grown: nothing but old and new entries, and something for each of their names.  This is
all that a reference needs to know of a table, and it passes through every walk that fills
one (`foldlM_grows`, `addFrom_grows`), so the index of everything that was generated holds
the labels of the data sections and the global labels of the sequences (`ofAll_grows`).
-/
import TestProgram.Linking
import TestProgram.Proofs.Computation

namespace TestProgram.LabelIndex

set_option autoImplicit false

/-! ## Tables -/

/-- The later table holds entries of the earlier one and new ones, and one for each name of
either. -/
structure Gains (before after : KeyMap LabelTarget) (new : String → LabelTarget → Prop) :
    Prop where
  sound : ∀ name target, after.find? name = some target →
    before.find? name = some target ∨ new name target
  complete : ∀ name target, before.find? name = some target ∨ new name target →
    ∃ found, after.find? name = some found

/-- Nothing new. -/
def Nothing (_ : String) (_ : LabelTarget) : Prop := False

/-- One new entry. -/
def Entry (name : String) (target : LabelTarget) (key : String) (value : LabelTarget) : Prop :=
  key = name ∧ value = target

theorem Gains.refl (table : KeyMap LabelTarget) : Gains table table Nothing where
  sound _ _ found := .inl found
  complete name target held := by
    rcases held with old | new
    · exact ⟨target, old⟩
    · cases new

theorem Gains.trans {first second third : KeyMap LabelTarget}
    {new later : String → LabelTarget → Prop} (here : Gains first second new)
    (there : Gains second third later) :
    Gains first third (fun name target => new name target ∨ later name target) where
  sound name target found := by
    rcases there.sound name target found with middle | fresh
    · exact (here.sound name target middle).imp id .inl
    · exact .inr (.inr fresh)
  complete name target held := by
    rcases held with old | fresh | last
    · obtain ⟨found, middle⟩ := here.complete name target (.inl old)
      exact there.complete name found (.inl middle)
    · obtain ⟨found, middle⟩ := here.complete name target (.inr fresh)
      exact there.complete name found (.inl middle)
    · exact there.complete name target (.inr last)

theorem Gains.congr {before after : KeyMap LabelTarget} {new other : String → LabelTarget → Prop}
    (gains : Gains before after new) (same : ∀ name target, new name target ↔ other name target) :
    Gains before after other where
  sound name target found := (gains.sound name target found).imp id (same name target).mp
  complete name target held := gains.complete name target (held.imp id (same name target).mpr)

theorem gains_insert (table : KeyMap LabelTarget) (name : String) (target : LabelTarget) :
    Gains table (table.insert name target) (Entry name target) where
  sound key value found := by
    by_cases same : key = name
    · subst same
      rw [KeyMap.find?_insert_self] at found
      cases found
      exact .inr ⟨rfl, rfl⟩
    · rw [KeyMap.find?_insert_of_ne _ _ same] at found
      exact .inl found
  complete key value held := by
    by_cases same : key = name
    · subst same
      exact ⟨target, KeyMap.find?_insert_self table key target⟩
    · rcases held with old | new
      · exact ⟨value, by rw [KeyMap.find?_insert_of_ne _ _ same, old]⟩
      · exact absurd new.1 same

/-- A table in which the first entry of a name counts. -/
theorem gains_insert_first (table : KeyMap LabelTarget) (name : String) (target : LabelTarget) :
    Gains table (if table.contains name then table else table.insert name target)
      (Entry name target) := by
  by_cases held : table.contains name
  · rw [if_pos held]
    obtain ⟨found, there⟩ := Option.isSome_iff_exists.mp held
    refine ⟨fun _ _ => .inl, ?_⟩
    rintro key value (old | ⟨rfl, _⟩)
    · exact ⟨value, old⟩
    · exact ⟨found, there⟩
  · rw [if_neg held]
    exact gains_insert table name target

/-! ## Walks -/

/-- An index whose two tables have grown. -/
structure Grows (before after : LabelIndex) (globals data : String → LabelTarget → Prop) :
    Prop where
  globals : Gains before.globals after.globals globals
  data : Gains before.data after.data data

theorem Grows.congr {before after : LabelIndex}
    {globals globals' data data' : String → LabelTarget → Prop}
    (grows : Grows before after globals data)
    (same : ∀ name target, globals name target ↔ globals' name target)
    (also_same : ∀ name target, data name target ↔ data' name target) :
    Grows before after globals' data' :=
  ⟨grows.globals.congr same, grows.data.congr also_same⟩

/-- A walk adds what each of its steps adds. -/
theorem foldlM_grows {β : Type} {step : LabelIndex → β → Except Fault LabelIndex}
    {globals data : β → String → LabelTarget → Prop}
    (each : ∀ {index : LabelIndex} {item : β} {after : LabelIndex},
      step index item = .ok after → Grows index after (globals item) (data item))
    (items : List β) : ∀ {index after : LabelIndex}, items.foldlM step index = .ok after →
      Grows index after (fun name target => ∃ item ∈ items, globals item name target)
        (fun name target => ∃ item ∈ items, data item name target) := by
  induction items with
  | nil =>
      intro index after walked
      cases walked
      exact ⟨(Gains.refl _).congr (by simp [Nothing]), (Gains.refl _).congr (by simp [Nothing])⟩
  | cons item rest ih =>
      intro index after walked
      rw [List.foldlM_cons] at walked
      obtain ⟨middle, here, there⟩ := Except.bind_ok_iff.mp walked
      have first := each here
      have later := ih there
      exact ⟨(first.globals.trans later.globals).congr (by simp),
        (first.data.trans later.data).congr (by simp)⟩

theorem addGlobal_grows {index after : LabelIndex} {name : String} {target : LabelTarget}
    (added : index.addGlobal name target = .ok after) :
    Grows index after (Entry name target) Nothing := by
  rw [addGlobal] at added
  split at added
  · cases added
  · cases added
    exact ⟨gains_insert index.globals name target, Gains.refl index.data⟩

/-- A label of a data section is in the table of these, and among the globals if it is one. -/
theorem addData_grows {index after : LabelIndex} {label : Label} {target : LabelTarget}
    (added : index.addData label target = .ok after) :
    Grows index after
      (fun name place => label.isGlobal = true ∧ Entry label.name.render target name place)
      (Entry label.name.render target) := by
  rw [addData] at added
  by_cases visible : label.isGlobal = true
  · rw [if_pos visible] at added
    obtain ⟨middle, first, added⟩ := Except.bind_ok_iff.mp added
    cases added
    have grown := addGlobal_grows first
    refine ⟨grown.globals.congr (by simp [visible]), ?_⟩
    exact (grown.data.trans (gains_insert_first middle.data _ target)).congr (by simp [Nothing])
  · rw [if_neg visible] at added
    cases added
    exact ⟨(Gains.refl _).congr (by simp [Nothing, visible]), gains_insert_first _ _ target⟩

theorem addInstruction_grows {index after : LabelIndex} {target : LabelTarget}
    {instruction : Instruction} (added : index.addInstruction target instruction = .ok after) :
    Grows index after
      (fun name place =>
        ∃ placed ∈ globalLabels instruction, Entry placed.rendered target name place)
      Nothing := by
  rw [addInstruction, Except.mapError_ok_iff] at added
  have grown := foldlM_grows (fun here => addGlobal_grows here) _ added
  exact grown.congr (by simp) (by simp [Nothing])

/-- The global labels of a sequence, each with the target made from the place of its line. -/
def Globals (instructions : Sequence) (target : Nat → LabelTarget) (name : String)
    (place : LabelTarget) : Prop :=
  ∃ position instruction, instructions[position]? = some instruction ∧
    ∃ placed ∈ globalLabels instruction, Entry placed.rendered (target position) name place

theorem addFrom_grows {phase : PhaseKind} {sequence : Nat} (instructions : Sequence) :
    ∀ {position : Nat} {index after : LabelIndex},
      addFrom phase sequence position index instructions = .ok after →
      Grows index after
        (Globals instructions (fun place => .code phase sequence (position + place))) Nothing := by
  induction instructions with
  | nil =>
      intro position index after walked
      cases walked
      exact ⟨(Gains.refl _).congr (by simp [Nothing, Globals]), Gains.refl _⟩
  | cons instruction rest ih =>
      intro position index after walked
      rw [addFrom] at walked
      obtain ⟨middle, here, there⟩ := Except.bind_ok_iff.mp walked
      have first := addInstruction_grows here
      have later := ih there
      refine ⟨(first.globals.trans later.globals).congr (fun name target => ?_),
        (first.data.trans later.data).congr (by simp [Nothing])⟩
      constructor
      · rintro (declared | ⟨place, other, found, declared⟩)
        · exact ⟨0, instruction, rfl, declared⟩
        · refine ⟨place + 1, other, by simpa using found, ?_⟩
          simpa only [Nat.add_assoc, Nat.add_comm 1] using declared
      · rintro ⟨place, other, found, declared⟩
        cases place with
        | zero =>
            cases found
            exact .inl declared
        | succ place =>
            refine .inr ⟨place, other, by simpa using found, ?_⟩
            simpa only [Nat.add_assoc, Nat.add_comm 1] using declared

theorem addSequence_grows {index after : LabelIndex} {phase : PhaseKind} {sequence : Nat}
    {instructions : Sequence}
    (added : index.addSequence phase sequence instructions = .ok after) :
    Grows index after (Globals instructions (.code phase sequence)) Nothing := by
  have grown := addFrom_grows instructions added
  simpa using grown

/-- **What an index knows.**  The global labels of data sections and sequences are in one of
its tables, all labels of data sections in the other, and nothing else is in either. -/
theorem ofAll_grows {labels : List (Label × LabelTarget)} {sequences : List NumberedSequence}
    {index : LabelIndex} (made : ofAll labels sequences = .ok index) :
    Grows {} index
      (fun name target =>
        (∃ entry ∈ labels,
          entry.1.isGlobal = true ∧ Entry entry.1.name.render entry.2 name target) ∨
        ∃ sequence ∈ sequences,
          Globals sequence.instructions (.code sequence.phase sequence.number) name target)
      (fun name target => ∃ entry ∈ labels, Entry entry.1.name.render entry.2 name target) := by
  obtain ⟨middle, first, later⟩ := Except.bind_ok_iff.mp made
  have data := foldlM_grows (fun added => addData_grows added) labels first
  have code := foldlM_grows (fun added => addSequence_grows added) sequences later
  exact ⟨data.globals.trans code.globals, (data.data.trans code.data).congr (by simp [Nothing])⟩

end TestProgram.LabelIndex
