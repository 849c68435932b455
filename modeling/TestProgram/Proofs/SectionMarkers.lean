/-
# TestProgram.Proofs.SectionMarkers -- reading the sections off a listing

Whoever reads a listing from the top learns of the memory sections from the lines `// section` and
`// end of section`.  `SectionReader.read` is such a reader: it is given the text of the listing
and nothing else.  The parts of a listing say where in its text each instruction stands
(`Generated.render_parts`), and so what a reader knows when it gets there.

The printer compares each instruction with the one before it in its sequence, and so, for a text
in which no line of an instruction looks like a marker, a reader knows the section of every
instruction but perhaps the first ones of a sequence.  There it is right exactly when no sequence
begins outside of all sections after one that has ended in a section
(`Generated.tells_sections_iff`); at the end of a sequence the printer tells of no section that is
left.
-/
import TestProgram.Listing
import TestProgram.Session.Calls
import TestProgram.Session.Scopes
import Mathlib.Data.List.Basic

namespace TestProgram

set_option autoImplicit false

/-! ## The reader -/

namespace SectionReader

def beginning : List Char := "// section ".toList

def ending : List Char := "// end of section".toList

/-- The line enters a section or leaves one. -/
def IsMarker (row : List Char) : Prop :=
  row = ending ∨ beginning <+: row

instance (row : List Char) : Decidable (IsMarker row) :=
  inferInstanceAs (Decidable (row = ending ∨ beginning <+: row))

/-- The section in force after a line, given the one before it. -/
def readRow (current : Option String) (row : List Char) : Option String :=
  if row = ending then none
  else if beginning <+: row then some (String.ofList (row.drop beginning.length))
  else current

/-- The section in force after a text, given the one before it. -/
def read (current : Option String) (text : String) : Option String :=
  (text.toList.splitOn '\n').foldl readRow current

/-- No line of the text is a marker. -/
def Silent (text : String) : Prop :=
  ∀ row ∈ text.toList.splitOn '\n', ¬ IsMarker row

instance (text : String) : Decidable (Silent text) :=
  inferInstanceAs (Decidable (∀ row ∈ text.toList.splitOn '\n', ¬ IsMarker row))

theorem readRow_of_not_marker {row : List Char} (other : ¬ IsMarker row)
    (current : Option String) : readRow current row = current := by
  rw [IsMarker, not_or] at other
  rw [readRow, if_neg other.1, if_neg other.2]

theorem read_silent {text : String} (silent : Silent text) (current : Option String) :
    read current text = current := by
  have rows : ∀ rows : List (List Char), (∀ row ∈ rows, ¬ IsMarker row) →
      rows.foldl readRow current = current := by
    intro rows others
    induction rows with
    | nil => rfl
    | cons row rest ih =>
        obtain ⟨here, later⟩ := List.forall_mem_cons.mp others
        rw [List.foldl_cons, readRow_of_not_marker here]
        exact ih later
  exact rows _ silent

theorem not_isMarker_nil : ¬ IsMarker [] := by decide

theorem splitOn_break (before after : List Char) :
    (before ++ '\n' :: after).splitOn '\n' = before.splitOn '\n' ++ after.splitOn '\n' :=
  List.splitOnP_append_cons before after (beq_self_eq_true '\n')

theorem splitOn_unbroken {row : List Char} (unbroken : '\n' ∉ row) : row.splitOn '\n' = [row] := by
  refine List.splitOnP_eq_singleton (fun char member => ?_)
  rw [beq_eq_false_iff_ne]
  rintro rfl
  exact unbroken member

theorem toList_line (row : String) : (line row).toList = row.toList ++ ['\n'] := by
  simp [line]

/-- A line is read before what follows it. -/
theorem read_line_append (current : Option String) (row rest : String) :
    read current (line row ++ rest) = read (read current row) rest := by
  rw [read, String.toList_append, toList_line, List.append_assoc, List.singleton_append,
    splitOn_break, List.foldl_append]
  rfl

theorem read_empty (current : Option String) : read current "" = current :=
  readRow_of_not_marker not_isMarker_nil current

theorem read_line (current : Option String) (row : String) :
    read current (line row) = read current row := by
  have whole := read_line_append current row ""
  rwa [String.append_empty, read_empty] at whole

/-! ## Texts of whole lines -/

/-- The text is made of whole lines. -/
def Lined (text : String) : Prop :=
  ∃ rows : List String, text = String.join (rows.map line)

theorem lined_empty : Lined "" :=
  ⟨[], rfl⟩

theorem lined_line (row : String) : Lined (line row) :=
  ⟨[row], by simp⟩

theorem Lined.append {text other : String} (here : Lined text) (there : Lined other) :
    Lined (text ++ other) := by
  obtain ⟨rows, rfl⟩ := here
  obtain ⟨others, rfl⟩ := there
  exact ⟨rows ++ others, by rw [List.map_append, String.join_append]⟩

theorem Lined.join {texts : List String} (all : ∀ text ∈ texts, Lined text) :
    Lined (String.join texts) := by
  induction texts with
  | nil => exact lined_empty
  | cons text rest ih =>
      obtain ⟨here, later⟩ := List.forall_mem_cons.mp all
      rw [String.join_cons]
      exact here.append (ih later)

/-- A text of whole lines is read before what follows it. -/
theorem Lined.read_append {text : String} (lined : Lined text) (current : Option String)
    (rest : String) : read current (text ++ rest) = read (read current text) rest := by
  obtain ⟨rows, rfl⟩ := lined
  induction rows generalizing current with
  | nil => simp [read_empty]
  | cons row others ih =>
      rw [List.map_cons, String.join_cons, String.append_assoc, read_line_append,
        read_line_append, ih]

/-! ## Lines of the printer -/

theorem read_unbroken {row : String} (unbroken : '\n' ∉ row.toList) (current : Option String) :
    read current row = readRow current row.toList := by
  rw [read, splitOn_unbroken unbroken]
  rfl

/-- A line is no marker if its first characters tell it from both. -/
theorem silent_of_start {row : String} {start : List Char} (unbroken : '\n' ∉ row.toList)
    (starts : start <+: row.toList) (apart : ¬ start <+: ending)
    (apart_also : ¬ start <+: beginning ∧ ¬ beginning <+: start) : Silent row := by
  intro other member
  rw [splitOn_unbroken unbroken, List.mem_singleton] at member
  rw [member]
  rintro (same | begins)
  · exact apart (same ▸ starts)
  · rcases List.prefix_or_prefix_of_prefix starts begins with first | second
    · exact apart_also.1 first
    · exact apart_also.2 second

theorem unbroken_number (number : Nat) : '\n' ∉ (toString number).toList := by
  rw [Nat.toString_eq_ofList_toDigits, String.toList_ofList]
  intro member
  have digit := Nat.isDigit_of_mem_toDigits (by decide) (by decide) member
  exact absurd digit (by decide)

/-- The printer numbers the seed and the sequences on lines like these. -/
theorem silent_numbered {start : String} (unbroken : '\n' ∉ start.toList)
    (apart : ¬ start.toList <+: ending)
    (apart_also : ¬ start.toList <+: beginning ∧ ¬ beginning <+: start.toList) (number : Nat) :
    Silent (start ++ toString number) := by
  refine silent_of_start ?_ ?_ apart apart_also
  · rw [String.toList_append, List.mem_append, not_or]
    exact ⟨unbroken, unbroken_number number⟩
  · rw [String.toList_append]
    exact List.prefix_append _ _

theorem silent_seed (seed : Nat) : Silent s!"// seed {seed}" :=
  silent_numbered (by decide) (by decide) (by decide) seed

theorem silent_sequence (number : Nat) : Silent s!"// sequence {number}" :=
  silent_numbered (by decide) (by decide) (by decide) number

theorem silent_phase (kind : PhaseKind) : Silent ("// " ++ kind.name ++ " phase") := by
  cases kind <;> decide

theorem read_sectionLine {memory : Option MemorySection}
    (unbroken : ∀ named, memory = some named → '\n' ∉ named.render.toList)
    (current : Option String) :
    read current (sectionLine memory) = memory.map MemorySection.render := by
  cases memory with
  | none =>
      rw [sectionLine, read_line, read_unbroken (by decide)]
      exact if_pos rfl
  | some named =>
      have start : '\n' ∉ ("// section " ++ named.render).toList := by
        rw [String.toList_append, List.mem_append, not_or]
        exact ⟨by decide, unbroken named rfl⟩
      have apart : beginning ++ named.render.toList ≠ ending := by
        intro same
        have begins : beginning <+: ending := ⟨named.render.toList, same⟩
        exact absurd begins (by decide)
      rw [sectionLine, read_line, read_unbroken start, String.toList_append]
      show readRow current (beginning ++ named.render.toList) = some named.render
      rw [readRow, if_neg apart, if_pos (List.prefix_append _ _), List.drop_left,
        String.ofList_toList]

theorem lined_sectionLine (memory : Option MemorySection) : Lined (sectionLine memory) := by
  cases memory <;> exact lined_line _

end SectionReader

/-! ## Parts of a listing -/

/-- A part of a listing: an instruction, or some other text. -/
inductive ListingPart
  | words (text : String)
  | instruction (instruction : Instruction)

namespace ListingPart

def render : ListingPart → String
  | .words text => text
  | .instruction printed => printed.render

def instruction? : ListingPart → Option Instruction
  | .words _ => none
  | .instruction printed => some printed

end ListingPart

/-- The instructions after a place where the section `current` is in force, with the lines that
tell of the changes between them. -/
def Sequence.parts : Option MemorySection → Sequence → List ListingPart
  | _, [] => []
  | current, instruction :: rest =>
      (if instruction.memory = current then [] else [.words (sectionLine instruction.memory)])
        ++ .instruction instruction :: Sequence.parts instruction.memory rest

def Phase.parts (phase : Phase) : List ListingPart :=
  .words (line ("// " ++ phase.kind.name ++ " phase"))
    :: phase.sequences.zipIdx.flatMap (fun (instructions, number) =>
        (if 1 < phase.sequences.length then [.words (line s!"// sequence {number}")] else [])
          ++ Sequence.parts none instructions)

def Generated.parts (generated : Generated) : List ListingPart :=
  .words (line s!"// seed {generated.seed}") :: generated.phases.flatMap Phase.parts
    ++ [.words (String.join (generated.data.map DataSection.render))]

theorem Sequence.render_parts (current : Option MemorySection) (sequence : Sequence) :
    String.join ((Sequence.parts current sequence).map ListingPart.render) =
      renderFrom current sequence := by
  induction sequence generalizing current with
  | nil => rfl
  | cons instruction rest ih =>
      rw [Sequence.parts, renderFrom, List.map_append, String.join_append, List.map_cons,
        String.join_cons, ih, String.append_assoc]
      refine congrArg (· ++ (instruction.render ++ renderFrom instruction.memory rest)) ?_
      split
      · rfl
      · simp [ListingPart.render]

theorem String.join_flatMap {α : Type} (pieces : α → List String) (items : List α) :
    String.join (items.flatMap pieces) =
      String.join (items.map fun item => String.join (pieces item)) := by
  induction items with
  | nil => rfl
  | cons item rest ih =>
      rw [List.flatMap_cons, String.join_append, List.map_cons, String.join_cons, ih]

theorem Phase.render_parts (phase : Phase) :
    String.join (phase.parts.map ListingPart.render) = phase.render := by
  rw [Phase.parts, Phase.render, List.map_cons, String.join_cons, List.map_flatMap,
    String.join_flatMap]
  refine congrArg (line ("// " ++ phase.kind.name ++ " phase") ++ ·)
    (congrArg String.join (List.map_congr_left ?_))
  rintro ⟨instructions, number⟩ _
  rw [List.map_append, String.join_append, Sequence.render_parts]
  refine congrArg (· ++ renderFrom none instructions) ?_
  split
  · simp [ListingPart.render]
  · rfl

/-- The parts of a listing make up its text. -/
theorem Generated.render_parts (generated : Generated) :
    String.join (generated.parts.map ListingPart.render) = generated.render := by
  rw [Generated.parts, Generated.render, List.cons_append, List.map_cons, String.join_cons,
    List.map_append, String.join_append, List.map_flatMap, String.join_flatMap]
  simp only [Phase.render_parts, List.map_cons, List.map_nil, ListingPart.render,
    String.join_cons, String.append_assoc]
  simp

theorem Sequence.instructions_parts (current : Option MemorySection) (sequence : Sequence) :
    (Sequence.parts current sequence).filterMap ListingPart.instruction? = sequence := by
  induction sequence generalizing current with
  | nil => rfl
  | cons instruction rest ih =>
      have here : (ListingPart.instruction instruction).instruction? = some instruction := rfl
      rw [Sequence.parts, List.filterMap_append, List.filterMap_cons_some here, ih]
      split <;> rfl

theorem Phase.instructions_parts (phase : Phase) :
    phase.parts.filterMap ListingPart.instruction? = phase.sequences.flatten := by
  have headline (headed : Prop) [Decidable headed] (text : String) :
      (if headed then [ListingPart.words text] else []).filterMap ListingPart.instruction? = [] := by
    split <;> rfl
  rw [Phase.parts, List.filterMap_cons_none rfl, List.filterMap_flatMap]
  simp only [List.filterMap_append, headline, List.nil_append, Sequence.instructions_parts]
  rw [List.flatMap_def]
  exact congrArg List.flatten (List.zipIdx_map_fst 0 phase.sequences)

/-- The instructions among the parts are those of the phases, in their order. -/
theorem Generated.instructions_parts (generated : Generated) :
    generated.parts.filterMap ListingPart.instruction? =
      generated.phases.flatMap fun phase => phase.sequences.flatten := by
  rw [Generated.parts, List.filterMap_append, List.filterMap_cons_none rfl, List.filterMap_flatMap]
  simp only [Phase.instructions_parts]
  exact List.append_nil _

/-! ## What a listing tells -/

open SectionReader

/-- Whoever reads the listing up to an instruction has read the section of that instruction. -/
def Generated.TellsSections (generated : Generated) : Prop :=
  ∀ earlier instruction later,
    generated.parts = earlier ++ .instruction instruction :: later →
      SectionReader.read none (String.join (earlier.map ListingPart.render)) =
        instruction.memory.map MemorySection.render

/-- An instruction cannot be taken for a marker: none of its own lines looks like one, and the
text of its section is on one line. -/
def Instruction.Plain (instruction : Instruction) : Prop :=
  SectionReader.Silent instruction.render ∧
    ∀ memory ∈ instruction.memory, '\n' ∉ memory.render.toList

instance (instruction : Instruction) : Decidable instruction.Plain :=
  inferInstanceAs (Decidable (_ ∧ ∀ memory ∈ instruction.memory, '\n' ∉ memory.render.toList))

/-- The section in force behind a sequence, when `current` is in force before it. -/
def Sequence.endsIn (current : Option MemorySection) (sequence : Sequence) :
    Option MemorySection :=
  sequence.getLast?.elim current Instruction.memory

/-- The sequence does not begin outside of all sections when `running` is in force. -/
def Sequence.Fits (running : Option MemorySection) (sequence : Sequence) : Prop :=
  ∀ first ∈ sequence.head?, first.memory = none → running = none

instance (running : Option MemorySection) (sequence : Sequence) :
    Decidable (sequence.Fits running) :=
  inferInstanceAs (Decidable (∀ first ∈ sequence.head?, first.memory = none → running = none))

/-- No sequence begins outside of all sections when the instruction before it stands in one. -/
def Seamless : Option MemorySection → List Sequence → Prop
  | _, [] => True
  | running, sequence :: rest =>
      sequence.Fits running ∧ Seamless (sequence.endsIn running) rest

instance Seamless.decidable : ∀ (running : Option MemorySection) (sequences : List Sequence),
    Decidable (Seamless running sequences)
  | _, [] => .isTrue trivial
  | running, sequence :: rest =>
      have := Seamless.decidable (sequence.endsIn running) rest
      inferInstanceAs (Decidable (sequence.Fits running ∧ Seamless (sequence.endsIn running) rest))

namespace ListingPart

/-- From a state of the reader on, each instruction is met in its section. -/
def Tells : Option String → List ListingPart → Prop
  | _, [] => True
  | held, .words text :: rest => Tells (SectionReader.read held text) rest
  | held, .instruction made :: rest =>
      held = made.memory.map MemorySection.render ∧
        Tells (SectionReader.read held made.render) rest

instance decidableTells : ∀ (held : Option String) (parts : List ListingPart),
    Decidable (Tells held parts)
  | _, [] => .isTrue trivial
  | held, .words text :: rest => decidableTells (SectionReader.read held text) rest
  | held, .instruction made :: rest =>
      have := decidableTells (SectionReader.read held made.render) rest
      inferInstanceAs (Decidable (held = made.memory.map MemorySection.render ∧
        Tells (SectionReader.read held made.render) rest))

/-- The state of the reader behind some parts. -/
def readAll (held : Option String) (parts : List ListingPart) : Option String :=
  parts.foldl (fun held part => SectionReader.read held part.render) held

theorem tells_append (held : Option String) (parts others : List ListingPart) :
    Tells held (parts ++ others) ↔ Tells held parts ∧ Tells (readAll held parts) others := by
  induction parts generalizing held with
  | nil => exact (iff_of_eq (true_and _)).symm
  | cons part rest ih =>
      cases part with
      | words text => exact ih _
      | instruction made =>
          rw [List.cons_append, Tells, Tells, ih, and_assoc]
          rfl

end ListingPart

/-! ## Reading along -/

section Reading

open ListingPart

theorem readAll_words (held : Option String) (text : String) (rest : List ListingPart) :
    readAll held (.words text :: rest) = readAll (SectionReader.read held text) rest := rfl

theorem readAll_instruction (held : Option String) (made : Instruction)
    (rest : List ListingPart) :
    readAll held (.instruction made :: rest) = readAll (SectionReader.read held made.render) rest :=
  rfl

theorem readAll_append (held : Option String) (parts others : List ListingPart) :
    readAll held (parts ++ others) = readAll (readAll held parts) others :=
  List.foldl_append

theorem Sequence.endsIn_cons (current : Option MemorySection) (instruction : Instruction)
    (rest : Sequence) :
    Sequence.endsIn current (instruction :: rest) = rest.endsIn instruction.memory := by
  cases rest with
  | nil => rfl
  | cons next others =>
      rw [Sequence.endsIn, Sequence.endsIn, List.getLast?_cons_cons]
      obtain ⟨last, found⟩ := Option.isSome_iff_exists.mp
        (List.getLast?_isSome.mpr (List.cons_ne_nil next others))
      rw [found]
      rfl

/-- A reader who knows the section that the printer has in force meets every instruction in its
section, and knows the section in force behind them. -/
theorem Sequence.tells_parts {sequence : Sequence} (plain : ∀ made ∈ sequence, made.Plain)
    (current : Option MemorySection) :
    Tells (current.map MemorySection.render) (Sequence.parts current sequence) ∧
      readAll (current.map MemorySection.render) (Sequence.parts current sequence) =
        (sequence.endsIn current).map MemorySection.render := by
  induction sequence generalizing current with
  | nil => exact ⟨trivial, rfl⟩
  | cons instruction rest ih =>
      obtain ⟨⟨silent, unbroken⟩, later⟩ := List.forall_mem_cons.mp plain
      obtain ⟨tells, ends⟩ := ih later instruction.memory
      rw [Sequence.parts, Sequence.endsIn_cons]
      split
      · rename_i same
        subst same
        simp only [List.nil_append, Tells, readAll_instruction, read_silent silent]
        exact ⟨⟨trivial, tells⟩, ends⟩
      · simp only [List.cons_append, List.nil_append, Tells, readAll_words, readAll_instruction,
          read_sectionLine unbroken, read_silent silent]
        exact ⟨⟨trivial, tells⟩, ends⟩

/-- At the start of a sequence the printer has no section in force, whatever the reader knows.
The first instruction sets them right unless it stands outside of all sections. -/
theorem Sequence.tells_first {sequence : Sequence} (plain : ∀ made ∈ sequence, made.Plain)
    (running : Option MemorySection) :
    (Tells (running.map MemorySection.render) (Sequence.parts none sequence) ↔
      sequence.Fits running) ∧
    (sequence.Fits running →
      readAll (running.map MemorySection.render) (Sequence.parts none sequence) =
        (sequence.endsIn running).map MemorySection.render) := by
  rcases sequence with _ | ⟨instruction, rest⟩
  · exact ⟨⟨fun _ _ found => (by cases found), fun _ => trivial⟩, fun _ => rfl⟩
  · have fits : Sequence.Fits running (instruction :: rest) ↔
        (instruction.memory = none → running = none) := by
      simp [Sequence.Fits]
    obtain ⟨⟨silent, unbroken⟩, later⟩ := List.forall_mem_cons.mp plain
    obtain ⟨tells, ends⟩ := Sequence.tells_parts later instruction.memory
    rw [fits, Sequence.parts, Sequence.endsIn_cons]
    split
    · rename_i outside
      simp only [List.nil_append, Tells, readAll_instruction, read_silent silent, outside,
        forall_const] at tells ends ⊢
      constructor
      · rw [Option.map_none, Option.map_eq_none_iff]
        refine ⟨And.left, fun nothing => ⟨nothing, ?_⟩⟩
        rw [nothing]
        exact tells
      · rintro rfl
        exact ends
    · rename_i inside
      simp only [List.cons_append, List.nil_append, Tells, readAll_words, readAll_instruction,
        read_sectionLine unbroken, read_silent silent]
      exact ⟨⟨fun _ outside => absurd outside inside, fun _ => ⟨trivial, tells⟩⟩, fun _ => ends⟩

/-- The section in force behind some sequences. -/
def endsAll (running : Option MemorySection) (sequences : List Sequence) : Option MemorySection :=
  sequences.foldl Sequence.endsIn running

theorem seamless_append (running : Option MemorySection) (sequences others : List Sequence) :
    Seamless running (sequences ++ others) ↔
      Seamless running sequences ∧ Seamless (endsAll running sequences) others := by
  induction sequences generalizing running with
  | nil => exact (iff_of_eq (true_and _)).symm
  | cons sequence rest ih =>
      rw [List.cons_append, Seamless, Seamless, ih, and_assoc]
      rfl

/-- These parts print these sequences: a reader who knows the section in force before them is
right about all their instructions just when the sequences are seamless, and then knows the
section in force behind them too. -/
def Follows (parts : List ListingPart) (sequences : List Sequence) : Prop :=
  ∀ running : Option MemorySection,
    (Tells (running.map MemorySection.render) parts ↔ Seamless running sequences) ∧
      (Seamless running sequences →
        readAll (running.map MemorySection.render) parts =
          (endsAll running sequences).map MemorySection.render)

theorem follows_nil : Follows [] [] :=
  fun _ => ⟨Iff.rfl, fun _ => rfl⟩

theorem follows_words {row : String} (silent : Silent row) : Follows [.words (line row)] [] := by
  intro running
  refine ⟨Iff.rfl, fun _ => ?_⟩
  rw [readAll_words, read_line, read_silent silent]
  rfl

theorem follows_sequence {sequence : Sequence} (plain : ∀ made ∈ sequence, made.Plain) :
    Follows (Sequence.parts none sequence) [sequence] := by
  intro running
  obtain ⟨tells, ends⟩ := Sequence.tells_first plain running
  exact ⟨tells.trans (iff_of_eq (and_true _)).symm, fun seamless => ends seamless.1⟩

theorem Follows.append {parts others : List ListingPart} {sequences more : List Sequence}
    (here : Follows parts sequences) (there : Follows others more) :
    Follows (parts ++ others) (sequences ++ more) := by
  intro running
  obtain ⟨tells, ends⟩ := here running
  obtain ⟨tells_more, ends_more⟩ := there (endsAll running sequences)
  rw [tells_append, seamless_append, tells]
  constructor
  · refine and_congr_right (fun seamless => ?_)
    rw [ends seamless]
    exact tells_more
  · rintro ⟨seamless, also⟩
    rw [readAll_append, ends seamless, ends_more also]
    exact congrArg _ List.foldl_append.symm

theorem Follows.flatMap {α : Type} {parts : α → List ListingPart} {sequences : α → List Sequence}
    {items : List α} (each : ∀ item ∈ items, Follows (parts item) (sequences item)) :
    Follows (items.flatMap parts) (items.flatMap sequences) := by
  induction items with
  | nil => exact follows_nil
  | cons item rest ih =>
      obtain ⟨here, later⟩ := List.forall_mem_cons.mp each
      exact here.append (ih later)

theorem Phase.follows {phase : Phase}
    (plain : ∀ sequence ∈ phase.sequences, ∀ made ∈ sequence, made.Plain) :
    Follows phase.parts phase.sequences := by
  have numbered : Follows (phase.sequences.zipIdx.flatMap (fun (instructions, number) =>
      (if 1 < phase.sequences.length then [.words (line s!"// sequence {number}")] else [])
        ++ Sequence.parts none instructions))
      (phase.sequences.zipIdx.flatMap (fun pair => [pair.1])) := by
    refine Follows.flatMap ?_
    rintro ⟨instructions, number⟩ member
    have here : Follows (Sequence.parts none instructions) [instructions] :=
      follows_sequence (plain instructions (List.fst_mem_of_mem_zipIdx member))
    show Follows (ite _ _ _ ++ Sequence.parts none instructions) [instructions]
    split
    · exact (follows_words (silent_sequence number)).append here
    · exact here
  have sequences : phase.sequences.zipIdx.flatMap (fun pair => [pair.1]) = phase.sequences := by
    rw [← List.map_eq_flatMap]
    exact List.zipIdx_map_fst 0 phase.sequences
  rw [sequences] at numbered
  exact (follows_words (silent_phase phase.kind)).append numbered

end Reading

/-! ## Whole listings -/

/-- No instruction of the template can be taken for a marker. -/
def Generated.Plain (generated : Generated) : Prop :=
  ∀ phase ∈ generated.phases, ∀ sequence ∈ phase.sequences, ∀ made ∈ sequence, made.Plain

instance (generated : Generated) : Decidable generated.Plain :=
  inferInstanceAs (Decidable (∀ phase ∈ generated.phases, ∀ sequence ∈ phase.sequences,
    ∀ made ∈ sequence, made.Plain))

theorem Generated.follows {generated : Generated} (plain : generated.Plain) :
    Follows (.words (line s!"// seed {generated.seed}") :: generated.phases.flatMap Phase.parts)
      (generated.phases.flatMap Phase.sequences) :=
  (follows_words (silent_seed generated.seed)).append
    (Follows.flatMap (fun phase member => Phase.follows (plain phase member)))

section Lines

open ListingPart

theorem lined_instruction (instruction : Instruction) : Lined instruction.render := by
  refine (Lined.append (Lined.join ?_) (Lined.join ?_)).append ?_
  · rintro _ member
    obtain ⟨output, _, rfl⟩ := List.mem_map.mp member
    cases output <;> exact lined_line _
  · rintro _ member
    obtain ⟨placed, _, rfl⟩ := List.mem_map.mp member
    exact lined_line _
  · split
    · exact lined_line _
    · exact lined_empty

theorem lined_data (region : DataSection) : Lined region.render := by
  refine (lined_line _).append (Lined.join ?_)
  rintro _ member
  obtain ⟨directive, _, rfl⟩ := List.mem_map.mp member
  cases directive <;> exact lined_line _

theorem Sequence.lined_parts (current : Option MemorySection) (sequence : Sequence) :
    ∀ part ∈ Sequence.parts current sequence, Lined part.render := by
  induction sequence generalizing current with
  | nil => exact fun _ member => absurd member List.not_mem_nil
  | cons instruction rest ih =>
      rw [Sequence.parts]
      refine List.forall_mem_append.mpr ⟨?_, List.forall_mem_cons.mpr
        ⟨lined_instruction instruction, ih instruction.memory⟩⟩
      split
      · exact fun _ member => absurd member List.not_mem_nil
      · exact List.forall_mem_singleton.mpr (lined_sectionLine _)

theorem Phase.lined_parts (phase : Phase) : ∀ part ∈ phase.parts, Lined part.render := by
  refine List.forall_mem_cons.mpr ⟨lined_line _, fun part member => ?_⟩
  obtain ⟨⟨instructions, number⟩, _, printed⟩ := List.mem_flatMap.mp member
  rcases List.mem_append.mp printed with headline | inside
  · split at headline
    · rw [List.mem_singleton.mp headline]
      exact lined_line _
    · cases headline
  · exact Sequence.lined_parts none instructions part inside

theorem Generated.lined_parts (generated : Generated) :
    ∀ part ∈ generated.parts, Lined part.render := by
  refine List.forall_mem_append.mpr ⟨List.forall_mem_cons.mpr ⟨lined_line _, ?_⟩,
    List.forall_mem_singleton.mpr (Lined.join ?_)⟩
  · intro part member
    obtain ⟨phase, _, member⟩ := List.mem_flatMap.mp member
    exact phase.lined_parts part member
  · rintro _ member
    obtain ⟨region, _, rfl⟩ := List.mem_map.mp member
    exact lined_data region

theorem readAll_eq_read (held : Option String) {parts : List ListingPart}
    (lined : ∀ part ∈ parts, Lined part.render) :
    readAll held parts = SectionReader.read held (String.join (parts.map ListingPart.render)) := by
  induction parts generalizing held with
  | nil => exact (read_empty held).symm
  | cons part rest ih =>
      obtain ⟨here, later⟩ := List.forall_mem_cons.mp lined
      rw [List.map_cons, String.join_cons, here.read_append, ← ih _ later]
      rfl

/-- What is told at each instruction, told by splitting the parts there. -/
theorem tells_iff_split (held : Option String) (parts : List ListingPart) :
    Tells held parts ↔ ∀ earlier made later, parts = earlier ++ .instruction made :: later →
      readAll held earlier = made.memory.map MemorySection.render := by
  induction parts generalizing held with
  | nil => simp [Tells]
  | cons part rest ih =>
      have behind : Tells (SectionReader.read held part.render) rest ↔
          ∀ earlier made later, rest = earlier ++ .instruction made :: later →
            readAll held (part :: earlier) = made.memory.map MemorySection.render := ih _
      constructor
      · rintro tells (_ | ⟨first, earlier⟩) made later same
        · cases same
          exact tells.1
        · obtain ⟨rfl, split⟩ := List.cons.inj same
          refine behind.mp ?_ earlier made later split
          cases part with
          | words text => exact tells
          | instruction first => exact tells.2
      · intro told
        have rest_told := behind.mpr (fun earlier made later same =>
          told (part :: earlier) made later (congrArg (part :: ·) same))
        cases part with
        | words text => exact rest_told
        | instruction made => exact ⟨told [] made rest rfl, rest_told⟩

end Lines

/-- The reader of a listing meets its instructions one by one. -/
theorem Generated.tellsSections_iff_tells (generated : Generated) :
    generated.TellsSections ↔ ListingPart.Tells none generated.parts := by
  rw [tells_iff_split]
  refine forall_congr' fun earlier => forall_congr' fun made => forall_congr' fun later =>
    imp_congr_right fun same => ?_
  rw [readAll_eq_read]
  intro part member
  exact generated.lined_parts part (same ▸ List.mem_append_left _ member)

/-- **A listing tells the sections of its instructions.**  The parts of a listing make up its text,
and the instructions among them are those of the phases in their order.  Of a template whose
instructions cannot be taken for markers: whoever reads its listing from the top has, just before
each instruction, read the section of that instruction, if and only if no sequence, of any phase,
begins outside of all sections after an instruction that stands in one. -/
theorem Generated.tells_sections_iff (generated : Generated) (plain : generated.Plain) :
    String.join (generated.parts.map ListingPart.render) = generated.render ∧
      generated.parts.filterMap ListingPart.instruction? =
        (generated.phases.flatMap fun phase => phase.sequences.flatten) ∧
      (generated.TellsSections ↔ Seamless none (generated.phases.flatMap Phase.sequences)) := by
  refine ⟨generated.render_parts, generated.instructions_parts, ?_⟩
  rw [generated.tellsSections_iff_tells, Generated.parts, ListingPart.tells_append]
  exact (iff_of_eq (and_true _)).trans (generated.follows plain none).1

/-- A template of three calls, the second of them in a section. -/
def passingThrough : Template Unit where
  pre := pure ()
  main := do
    Act.session (Session.addCall { name := "before" } (.caller "listing" 1 1))
    Act.inSection ⟨.text, 0, 4096, none⟩ (.caller "listing" 2 1)
      (Act.session (Session.addCall { name := "inside" } (.caller "listing" 3 1)))
    Act.session (Session.addCall { name := "behind" } (.caller "listing" 4 1))
  post := pure ()

theorem tells_sections_passing_through :
    ∃ generated, (passingThrough.generate ⟨Session.new {}, ()⟩).1 = .ok generated ∧
      generated.Plain ∧ generated.TellsSections := by
  have holds : (passingThrough.generate ⟨Session.new {}, ()⟩).1.toOption.any (fun generated =>
      decide (generated.Plain ∧ Seamless none (generated.phases.flatMap Phase.sequences))) =
        true := by decide +kernel
  cases run : (passingThrough.generate ⟨Session.new {}, ()⟩).1 with
  | error fault =>
      rw [run] at holds
      cases holds
  | ok generated =>
      rw [run] at holds
      obtain ⟨plain, seamless⟩ := of_decide_eq_true holds
      exact ⟨generated, rfl, plain, (generated.tells_sections_iff plain).2.2.mpr seamless⟩

/-- A template that leaves a section where its first phase ends. -/
def leavingBetween : Template Unit where
  pre := Act.inSection ⟨.text, 0, 4096, none⟩ (.caller "listing" 1 1)
    (Act.session (Session.addCall { name := "inside" } (.caller "listing" 2 1)))
  main := Act.session (Session.addCall { name := "behind" } (.caller "listing" 3 1))
  post := pure ()

/-- The end of a section is not told where a phase ends with it, and the next instruction is read
in the section of the one before. -/
theorem tells_sections_fails_between_phases :
    ∃ generated, (leavingBetween.generate ⟨Session.new {}, ()⟩).1 = .ok generated ∧
      generated.Plain ∧ ¬ generated.TellsSections := by
  have fails : (leavingBetween.generate ⟨Session.new {}, ()⟩).1.toOption.any (fun generated =>
      decide (generated.Plain ∧ ¬ ListingPart.Tells none generated.parts)) = true := by
    decide +kernel
  cases run : (leavingBetween.generate ⟨Session.new {}, ()⟩).1 with
  | error fault =>
      rw [run] at fails
      cases fails
  | ok generated =>
      rw [run] at fails
      obtain ⟨plain, missed⟩ := of_decide_eq_true fails
      exact ⟨generated, rfl, plain, fun tells =>
        missed (generated.tellsSections_iff_tells.mp tells)⟩

end TestProgram
