/-
# TestProgram.Proofs.Resolution -- a reference is bound to a declaration that it may mean

What a reference may mean is said without any search: a declaration in sight in its own
sequence (`InSight`); failing that, for a named one, a global label of that text in the code
or the data; failing that, a label of a data section (`Eligible`).  The search of an index
comes to one of these (`find?_eligible`), and to nothing only when there is none
(`find?_complete`).  So binding a sequence succeeds exactly when each of its references may
mean something (`resolve_ok_iff`), and changes nothing but the operands (`resolve_ok`).
-/
import TestProgram.Proofs.Paired
import TestProgram.Proofs.Registration

namespace TestProgram

set_option autoImplicit false

/-! ## Declarations -/

/-- The sequences of each phase. -/
abbrev Code := PhaseKind → List Sequence

section Declarations

variable (code : Code) (data : List DataSection)

def Code.line? (phase : PhaseKind) (sequence position : Nat) : Option Instruction :=
  ((code phase)[sequence]?).bind (fun instructions => instructions[position]?)

/-- The line at this place declares the label. -/
def Code.Declares (phase : PhaseKind) (sequence position : Nat) (placed : PlacedLabel) : Prop :=
  ∃ line, code.line? phase sequence position = some line ∧ placed ∈ line.labels

/-- The label is a directive of its own at this place. -/
def DataDeclares (region directive : Nat) (label : Label) : Prop :=
  ∃ held, data[region]? = some held ∧ held.directives[directive]? = some (.label label)

/-- A reference at a position sees the declaration: its scope encloses that of the reference,
it has the name or the number, and a number stands in the right direction. -/
def InSight (phase : PhaseKind) (sequence position : Nat) (reference : LabelReference)
    (place : Nat) (placed : PlacedLabel) : Prop :=
  code.Declares phase sequence place placed ∧
    placed.label.scope.encloses reference.scope = true ∧
    match reference with
    | .named name _ => placed.label.name = .named name
    | .numeric slot true _ => placed.label.name = .numeric slot ∧ position < place
    | .numeric slot false _ => placed.label.name = .numeric slot ∧ place ≤ position

/-- Global labels of the code and the data, by the text they are printed with. -/
inductive GlobalLabel : String → LabelTarget → Prop
  | code {phase : PhaseKind} {sequence position : Nat} {placed : PlacedLabel}
      (declared : code.Declares phase sequence position placed)
      (visible : placed.label.isGlobal = true) :
      GlobalLabel placed.rendered (.code phase sequence position)
  | data {region directive : Nat} {label : Label}
      (declared : DataDeclares data region directive label) (visible : label.isGlobal = true) :
      GlobalLabel label.name.render (.data region directive)

/-- All labels of the data. -/
inductive DataLabel : String → LabelTarget → Prop
  | mk {region directive : Nat} {label : Label}
      (declared : DataDeclares data region directive label) :
      DataLabel label.name.render (.data region directive)

/-- The line at this place has an operand that refers to a label. -/
def Code.Refers (phase : PhaseKind) (sequence position : Nat) (reference : LabelReference)
    (bound : Option ResolvedLabel) : Prop :=
  ∃ line, code.line? phase sequence position = some line ∧
    .label reference bound ∈ line.operands

/-- What a reference at a position may mean. -/
inductive Eligible (phase : PhaseKind) (sequence position : Nat) :
    LabelReference → ResolvedLabel → Prop
  | near {reference : LabelReference} {place : Nat} {placed : PlacedLabel}
      (seen : InSight code phase sequence position reference place placed) :
      Eligible phase sequence position reference ⟨placed.rendered, .code phase sequence place⟩
  | global {name : String} {scope : BlockId} {target : LabelTarget}
      (alone : ∀ place placed,
        ¬ InSight code phase sequence position (.named name scope) place placed)
      (declared : GlobalLabel code data name target) :
      Eligible phase sequence position (.named name scope) ⟨name, target⟩
  | data {name : String} {scope : BlockId} {target : LabelTarget}
      (alone : ∀ place placed,
        ¬ InSight code phase sequence position (.named name scope) place placed)
      (no_global : ∀ other, ¬ GlobalLabel code data name other)
      (declared : DataLabel data name target) :
      Eligible phase sequence position (.named name scope) ⟨name, target⟩

/-- There is a line or a directive at the target, and it declares a label that is printed with
this text. -/
def Real : ResolvedLabel → Prop
  | ⟨rendered, .code phase sequence position⟩ =>
      ∃ placed, code.Declares phase sequence position placed ∧ placed.rendered = rendered
  | ⟨rendered, .data region directive⟩ =>
      ∃ label, DataDeclares data region directive label ∧ label.name.render = rendered

end Declarations

variable {code : Code} {data : List DataSection}

theorem GlobalLabel.real {name : String} {target : LabelTarget}
    (declared : GlobalLabel code data name target) : Real code data ⟨name, target⟩ := by
  cases declared with
  | code declared visible => exact ⟨_, declared, rfl⟩
  | data declared visible => exact ⟨_, declared, rfl⟩

/-- What a reference may mean is there. -/
theorem Eligible.real {phase : PhaseKind} {sequence position : Nat} {reference : LabelReference}
    {label : ResolvedLabel}
    (eligible : Eligible code data phase sequence position reference label) :
    Real code data label := by
  cases eligible with
  | near seen => exact ⟨_, seen.1, rfl⟩
  | global alone declared => exact declared.real
  | data alone no_global declared =>
      cases declared with
      | mk declared => exact ⟨_, declared, rfl⟩

/-! ## Searching a sequence -/

namespace LabelIndex

theorem mem_declarations {instructions : Sequence} {place : Nat} {placed : PlacedLabel} :
    (place, placed) ∈ declarations instructions ↔
      ∃ line, instructions[place]? = some line ∧ placed ∈ line.labels := by
  simp only [declarations, List.mem_flatMap, Prod.exists, List.mem_map, Prod.mk.injEq,
    List.mem_zipIdx_iff_getElem?]
  constructor
  · rintro ⟨line, position, found, other, held, rfl, rfl⟩
    exact ⟨line, found, held⟩
  · rintro ⟨line, found, held⟩
    exact ⟨line, place, found, placed, held, rfl, rfl⟩

theorem nearest_mem {position : Nat} {candidates : List (Nat × PlacedLabel)}
    {found : Nat × PlacedLabel} (nearest_is : nearest position candidates = some found) :
    found ∈ candidates := by
  induction candidates generalizing found with
  | nil => cases nearest_is
  | cons candidate rest ih =>
      rw [nearest] at nearest_is
      split at nearest_is
      · cases nearest_is
        exact List.mem_cons_self
      · rename_i other later
        split at nearest_is
        · cases nearest_is
          exact List.mem_cons_of_mem _ (ih later)
        · cases nearest_is
          exact List.mem_cons_self

theorem exists_nearest (position : Nat) {candidates : List (Nat × PlacedLabel)}
    {candidate : Nat × PlacedLabel} (member : candidate ∈ candidates) :
    ∃ found, nearest position candidates = some found := by
  cases candidates with
  | nil => cases member
  | cons first rest =>
      rw [nearest]
      split
      · exact ⟨_, rfl⟩
      · split
        · exact ⟨_, rfl⟩
        · exact ⟨_, rfl⟩

section Search

variable {phase : PhaseKind} {sequence position : Nat} {instructions : Sequence}
  {reference : LabelReference}

/-- The candidates of a search are the declarations of the sequence that could be in sight. -/
theorem mem_visible (here : (code phase)[sequence]? = some instructions) {place : Nat}
    {placed : PlacedLabel} :
    (place, placed) ∈ visible reference instructions ↔
      code.Declares phase sequence place placed ∧
        placed.label.scope.encloses reference.scope = true ∧
        match reference with
        | .named name _ => placed.label.name = .named name
        | .numeric slot _ _ => placed.label.name = .numeric slot := by
  rw [visible, List.mem_filter, mem_declarations]
  simp only [Code.Declares, Code.line?, here, Option.bind_some, Bool.and_eq_true]
  cases reference <;> simp

theorem local?_inSight (here : (code phase)[sequence]? = some instructions) {place : Nat}
    {placed : PlacedLabel} (found : local? instructions position reference = some (place, placed)) :
    InSight code phase sequence position reference place placed := by
  unfold local? at found
  cases reference with
  | named name scope =>
      exact (mem_visible here).mp (nearest_mem found)
  | numeric slot forward scope =>
      cases forward with
      | true =>
          have ahead : position < place := by simpa using List.find?_some found
          obtain ⟨declared, encloses, named⟩ :=
            (mem_visible here).mp (List.mem_of_find?_eq_some found)
          exact ⟨declared, encloses, named, ahead⟩
      | false =>
          obtain ⟨held, behind⟩ := List.mem_filter.mp (List.mem_of_getLast? found)
          obtain ⟨declared, encloses, named⟩ := (mem_visible here).mp held
          exact ⟨declared, encloses, named, by simpa using behind⟩

theorem exists_local? (here : (code phase)[sequence]? = some instructions) {place : Nat}
    {placed : PlacedLabel} (seen : InSight code phase sequence position reference place placed) :
    ∃ found, local? instructions position reference = some found := by
  obtain ⟨declared, encloses, named⟩ := seen
  unfold local?
  cases reference with
  | named name scope =>
      exact exists_nearest position ((mem_visible here).mpr ⟨declared, encloses, named⟩)
  | numeric slot forward scope =>
      cases forward with
      | true =>
          have held := (mem_visible here).mpr ⟨declared, encloses, named.1⟩
          rw [← Option.isSome_iff_exists, List.find?_isSome]
          exact ⟨(place, placed), held, by simpa using named.2⟩
      | false =>
          have held := (mem_visible here).mpr ⟨declared, encloses, named.1⟩
          rw [← Option.isSome_iff_exists, List.getLast?_isSome]
          refine List.ne_nil_of_mem (List.mem_filter.mpr ⟨held, ?_⟩)
          simpa using named.2

end Search

/-! ## Searching an index -/

/-- The tables of the index hold the global labels and those of the data. -/
abbrev Knows (index : LabelIndex) (code : Code) (data : List DataSection) : Prop :=
  Grows {} index (GlobalLabel code data) (DataLabel data)

section Index

variable {index : LabelIndex} {phase : PhaseKind} {sequence position : Nat}
  {instructions : Sequence} {reference : LabelReference}

theorem find?_eligible (knows : index.Knows code data)
    (here : (code phase)[sequence]? = some instructions) {label : ResolvedLabel}
    (found : index.find? phase sequence instructions position reference = some label) :
    Eligible code data phase sequence position reference label := by
  rw [find?] at found
  split at found
  · rename_i place placed nearby
    cases found
    exact .near (local?_inSight here nearby)
  · rename_i nothing
    have alone : ∀ place placed,
        ¬ InSight code phase sequence position reference place placed := by
      intro place placed seen
      obtain ⟨other, nearby⟩ := exists_local? here seen
      rw [nothing] at nearby
      cases nearby
    cases reference with
    | numeric slot forward scope => cases found
    | named name scope =>
        obtain ⟨target, either, rfl⟩ := Option.map_eq_some_iff.mp found
        rcases Option.or_eq_some_iff.mp either with global | ⟨no_global, held⟩
        · rcases knows.globals.sound name target global with old | declared
          · cases old
          · exact .global alone declared
        · rcases knows.data.sound name target held with old | declared
          · cases old
          · refine .data alone (fun other declared => ?_) declared
            obtain ⟨entry, there⟩ := knows.globals.complete name other (.inr declared)
            rw [no_global] at there
            cases there

theorem find?_complete (knows : index.Knows code data)
    (here : (code phase)[sequence]? = some instructions) {label : ResolvedLabel}
    (eligible : Eligible code data phase sequence position reference label) :
    ∃ found, index.find? phase sequence instructions position reference = some found := by
  rw [find?]
  split
  · exact ⟨_, rfl⟩
  · rename_i nothing
    cases eligible with
    | near seen =>
        obtain ⟨other, nearby⟩ := exists_local? here seen
        rw [nothing] at nearby
        cases nearby
    | @global name scope target alone declared =>
        obtain ⟨entry, there⟩ := knows.globals.complete name target (.inr declared)
        exact ⟨⟨name, entry⟩, by simp [outer?, there]⟩
    | @data name scope target alone no_global declared =>
        obtain ⟨entry, there⟩ := knows.data.complete name target (.inr declared)
        cases global : index.globals.find? name with
        | none => exact ⟨⟨name, entry⟩, by simp [outer?, global, there]⟩
        | some other => exact ⟨⟨name, other⟩, by simp [outer?, global]⟩

end Index

end LabelIndex

/-! ## Binding operands -/

/-- The operand without the place it is bound to. -/
def Operand.unbound : Operand → Operand
  | .label reference _ => .label reference none
  | operand => operand

def Instruction.unbound (instruction : Instruction) : Instruction :=
  { instruction with operands := instruction.operands.map Operand.unbound }

namespace LabelIndex

variable {index : LabelIndex} {phase : PhaseKind} {sequence position : Nat}
  {instructions : Sequence}

theorem resolveOperand_ok {operand result : Operand}
    (resolved : index.resolveOperand phase sequence instructions position operand = .ok result) :
    result.unbound = operand.unbound ∧
      ∀ reference bound, result = .label reference bound →
        ∃ label, bound = some label ∧
          index.find? phase sequence instructions position reference = some label := by
  cases operand with
  | value scalar =>
      cases resolved
      exact ⟨rfl, by rintro _ _ ⟨⟩⟩
  | address reference =>
      cases resolved
      exact ⟨rfl, by rintro _ _ ⟨⟩⟩
  | label reference held =>
      rw [resolveOperand] at resolved
      split at resolved
      · rename_i label found
        cases resolved
        refine ⟨rfl, ?_⟩
        rintro _ _ ⟨⟩
        exact ⟨label, rfl, found⟩
      · cases resolved

/-- An operand can be bound unless it refers to a label that is not found. -/
theorem resolveOperand_ok_iff {operand : Operand} :
    (∃ result, index.resolveOperand phase sequence instructions position operand = .ok result) ↔
      ∀ reference bound, operand = .label reference bound →
        ∃ label, index.find? phase sequence instructions position reference = some label := by
  cases operand with
  | value scalar => exact ⟨fun _ => by rintro _ _ ⟨⟩, fun _ => ⟨_, rfl⟩⟩
  | address reference => exact ⟨fun _ => by rintro _ _ ⟨⟩, fun _ => ⟨_, rfl⟩⟩
  | label reference held =>
      rw [resolveOperand]
      cases found : index.find? phase sequence instructions position reference with
      | none =>
          constructor
          · rintro ⟨_, ⟨⟩⟩
          · intro each
            obtain ⟨label, there⟩ := each reference held rfl
            rw [found] at there
            cases there
      | some label =>
          refine ⟨fun _ => ?_, fun _ => ⟨_, rfl⟩⟩
          rintro _ _ ⟨⟩
          exact ⟨label, found⟩

theorem resolveOperand_error {operand : Operand} {fault : Fault}
    (failed : index.resolveOperand phase sequence instructions position operand = .error fault) :
    fault.kind = .resolution := by
  cases operand with
  | value scalar => cases failed
  | address reference => cases failed
  | label reference held =>
      rw [resolveOperand] at failed
      split at failed
      · cases failed
      · cases failed
        rfl

theorem locate?_kind (fault : Fault) (location : Option Location) :
    (fault.locate? location).kind = fault.kind := by
  cases location <;> rfl

section Lines

variable {line result : Instruction}

theorem resolveInstruction_ok
    (resolved : index.resolveInstruction phase sequence instructions position line = .ok result) :
    result.unbound = line.unbound ∧
      ∀ reference bound, .label reference bound ∈ result.operands →
        ∃ label, bound = some label ∧
          index.find? phase sequence instructions position reference = some label := by
  obtain ⟨operands, each, resolved⟩ := Except.bind_ok_iff.mp resolved
  cases resolved
  have paired := Except.mapM_ok_iff.mp (Except.mapError_ok_iff.mp each)
  constructor
  · have same := Paired.map_eq (paired.imp (fun _ _ here => (resolveOperand_ok here).1))
    simp only [Instruction.unbound, same]
  · intro reference bound member
    obtain ⟨operand, _, here⟩ := Paired.exists_partner paired _ member
    exact (resolveOperand_ok here).2 reference bound rfl

theorem resolveInstruction_ok_iff :
    (∃ result, index.resolveInstruction phase sequence instructions position line = .ok result) ↔
      ∀ reference bound, .label reference bound ∈ line.operands →
        ∃ label, index.find? phase sequence instructions position reference = some label := by
  rw [resolveInstruction, Except.exists_bind_ok_iff]
  simp only [Except.mapError_ok_iff]
  rw [Except.exists_mapM_ok_iff]
  constructor
  · intro each reference bound member
    exact resolveOperand_ok_iff.mp (each _ member) reference bound rfl
  · intro each operand member
    refine resolveOperand_ok_iff.mpr (fun reference bound same => ?_)
    exact each reference bound (same ▸ member)

theorem resolveInstruction_error {fault : Fault}
    (failed : index.resolveInstruction phase sequence instructions position line = .error fault) :
    fault.kind = .resolution := by
  obtain ⟨cause, walked, rfl⟩ :=
    Except.mapError_error_iff.mp (Except.bind_ok_error_iff.mp failed)
  obtain ⟨operand, _, here⟩ := Except.mapM_error walked
  rw [locate?_kind]
  exact resolveOperand_error here

end Lines

/-! ## Binding sequences -/

/-- A bound sequence is the sequence with its references bound to what was found. -/
theorem resolve_ok {results : Sequence}
    (resolved : index.resolve phase sequence instructions = .ok results) :
    results.map Instruction.unbound = instructions.map Instruction.unbound ∧
      ∀ position line reference bound, results[position]? = some line →
        .label reference bound ∈ line.operands →
        ∃ label, bound = some label ∧
          index.find? phase sequence instructions position reference = some label := by
  have paired := Except.mapM_ok_iff.mp resolved
  constructor
  · have same := Paired.map_eq (f := fun (entry : Instruction × Nat) => entry.1.unbound)
      (paired.imp (fun _ _ here => (resolveInstruction_ok here).1))
    rw [same]
    conv_rhs => rw [← List.zipIdx_map_fst 0 instructions]
    rw [List.map_map]
    rfl
  · intro position line reference bound found member
    obtain ⟨⟨source, place⟩, there, here⟩ := Paired.at_place paired found
    rw [List.getElem?_zipIdx, Option.map_eq_some_iff] at there
    obtain ⟨_, _, same⟩ := there
    cases same
    rw [Nat.zero_add] at here
    exact (resolveInstruction_ok here).2 reference bound member

theorem resolve_ok_iff :
    (∃ results, index.resolve phase sequence instructions = .ok results) ↔
      ∀ position line reference bound, instructions[position]? = some line →
        .label reference bound ∈ line.operands →
        ∃ label, index.find? phase sequence instructions position reference = some label := by
  rw [resolve, Except.exists_mapM_ok_iff]
  constructor
  · intro each position line reference bound found member
    have listed : (line, position) ∈ instructions.zipIdx :=
      List.mem_zipIdx_iff_getElem?.mpr found
    exact resolveInstruction_ok_iff.mp (each _ listed) reference bound member
  · rintro each ⟨line, position⟩ listed
    have found := List.mem_zipIdx_iff_getElem?.mp listed
    exact resolveInstruction_ok_iff.mpr (fun reference bound member =>
      each position line reference bound found member)

theorem resolve_error {fault : Fault}
    (failed : index.resolve phase sequence instructions = .error fault) :
    fault.kind = .resolution := by
  obtain ⟨⟨line, position⟩, _, here⟩ := Except.mapM_error failed
  exact resolveInstruction_error here

end LabelIndex
end TestProgram
