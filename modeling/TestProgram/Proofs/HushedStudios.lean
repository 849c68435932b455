/-
# TestProgram.Proofs.HushedStudios -- bodies side by side

A studio is a session with a memory of what its template has built.  Two studios are abreast
when their sessions are and their memories belong together (`Studio.Abreast`); which memories do
is left to the kind of template.  What the enclosing statements do to a body, they do to a body
without texts and comments alike: blocks, attribute scopes, memory sections, and regions of
data, which also have to be left on both sides.
-/
import TestProgram.Proofs.HushedSessions

namespace TestProgram

set_option autoImplicit false

open Strategy (Agree)
open TestProgram.Computation

/-! ## Studios -/

/-- Two studios whose sessions are abreast, with memories that belong together. -/
structure Studio.Abreast {ε : Type} (M : ε → ε → Prop) (depth : Nat) (here there : Studio ε) :
    Prop where
  session : Session.Abreast depth here.session there.session
  memory : M here.memory there.memory

section Desk

variable {ε : Type} {M : ε → ε → Prop} {depth : Nat}

/-- The desk at which a studio writes data. -/
def Studio.desk (studio : Studio ε) : DataDesk :=
  { store := studio.session.data, engine := studio.session.engine }

/-- The studio when its desk has changed. -/
def Studio.atDesk (studio : Studio ε) (desk : DataDesk) : Studio ε :=
  { studio with session := { studio.session with data := desk.store, engine := desk.engine } }

theorem Studio.Abreast.desk {here there : Studio ε} (abreast : Studio.Abreast M depth here there) :
    DataDesk.Alike depth here.desk there.desk :=
  ⟨abreast.session.data, abreast.session.engine, abreast.session.sound, abreast.session.depth_is⟩

theorem Studio.Abreast.atDesk {here there : Studio ε} {deeper : Nat}
    (abreast : Studio.Abreast M depth here there) {desk other : DataDesk}
    (alike : DataDesk.Alike deeper desk other) :
    Studio.Abreast M deeper (here.atDesk desk) (there.atDesk other) where
  session := { abreast.session with
    data := alike.store, engine := alike.engine, sound := alike.sound, depth_is := alike.depth_is }
  memory := abreast.memory

end Desk

namespace Act

variable {ε α β : Type} {M : ε → ε → Prop} {depth : Nat} {V : α → β → Prop}

theorem session_inStep {here : Action α} {there : Action β}
    (together : InStep (Session.Abreast depth) V here there) :
    InStep (Studio.Abreast M depth) V (Act.session here) (Act.session there) := by
  intro first second abreast
  obtain ⟨agree, session⟩ := together first.session second.session abreast.session
  exact ⟨agree, session, abreast.memory⟩

theorem data_run (body : DataAction α) (studio : Studio ε) :
    Act.data body studio = ((body studio.desk).1, studio.atDesk (body studio.desk).2) := rfl

theorem data_inStep {here : DataAction α} {there : DataAction β}
    (together : InStep (DataDesk.Alike depth) V here there) :
    InStep (Studio.Abreast M depth) V (Act.data here) (Act.data there) :=
  session_inStep (Session.data_inStep together)

theorem session_unseen {body : Action Unit}
    (unseen : InStep (Session.Abreast depth) Eq body (pure ())) :
    InStep (Studio.Abreast M depth) Eq (Act.session body) (pure ()) :=
  session_inStep unseen

theorem data_unseen {body : DataAction Unit}
    (unseen : InStep (DataDesk.Alike depth) Eq body (pure ())) :
    InStep (Studio.Abreast M depth) Eq (Act.data body) (pure ()) :=
  data_inStep unseen

theorem ofExcept_inStep {here : Except Fault α} {there : Except Fault β}
    (agree : Agree V here there) :
    InStep (Studio.Abreast M depth) V (Act.ofExcept here) (Act.ofExcept there) :=
  fun _ _ abreast => ⟨agree, abreast⟩

theorem attempt_inStep {here : Act ε α} {there : Act ε β}
    (together : InStep (Studio.Abreast M depth) V here there) :
    InStep (Studio.Abreast M depth) (Agree V) (Act.attempt here) (Act.attempt there) := by
  intro first second abreast
  obtain ⟨agree, after⟩ := together first second abreast
  exact ⟨.ok agree, after⟩

theorem locating_inStep {here : Act ε α} {there : Act ε β} (location : Location)
    (together : InStep (Studio.Abreast M depth) V here there) :
    InStep (Studio.Abreast M depth) V (Act.locating location here)
      (Act.locating location there) := by
  intro first second abreast
  obtain ⟨agree, after⟩ := together first second abreast
  exact ⟨Agree.mapError agree _, after⟩

section Enclosed

variable {body silent : Act ε Unit} (together : InStep (Studio.Abreast M depth) Eq body silent)

include together

theorem scopedBlock_inStep (kind : BlockKind) (options : BlockOptions) (location : Location) :
    InStep (Studio.Abreast M depth) Eq (scopedBlock kind options location body)
      (scopedBlock kind options location silent) := by
  refine (session_inStep (Session.openBlock_inStep kind options _)).bind ?_
  rintro handle _ ⟨rfl, deep⟩
  refine (attempt_inStep together).bind (fun outcome other ended => ?_)
  exact session_inStep (Session.leaveBlock_inStep deep location ended)

theorem withAttributes_inStep (attributes : Attributes) :
    InStep (Studio.Abreast M depth) Eq (withAttributes attributes body)
      (withAttributes attributes silent) := by
  refine (session_inStep (Session.enterAttributes_inStep attributes)).bind ?_
  rintro outside _ rfl
  refine (attempt_inStep together).bind (fun outcome other ended => ?_)
  refine (session_inStep (Session.leaveAttributes_inStep outside)).bind (fun _ _ _ => ?_)
  exact ofExcept_inStep ended

theorem inSection_inStep (memory : MemorySection) (location : Location) :
    InStep (Studio.Abreast M depth) Eq (inSection memory location body)
      (inSection memory location silent) := by
  refine (session_inStep (Session.enterSection_inStep memory location)).bind ?_
  rintro outside _ rfl
  refine (attempt_inStep together).bind (fun outcome other ended => ?_)
  refine (session_inStep (Session.leaveSection_inStep outside)).bind (fun _ _ _ => ?_)
  exact ofExcept_inStep (Agree.mapError ended _)

theorem configureData_inStep (config : DataConfig) (location : Location) :
    InStep (Studio.Abreast M depth) Eq (configureData config location body)
      (configureData config location silent) := by
  refine (locating_inStep location (data_inStep (DataDesk.beginConfig_inStep config))).bind ?_
  intro _ _ _
  refine (attempt_inStep together).bind (fun outcome other ended => ?_)
  refine (data_inStep DataDesk.endConfig_inStep).bind (fun _ _ _ => ?_)
  exact ofExcept_inStep (Agree.mapError ended _)

end Enclosed

/-! ## Regions -/

/-- A statement that goes one region deeper, on both sides or on neither. -/
def Deepens (M : ε → ε → Prop) (depth : Nat) (opening : Act ε Unit) : Prop :=
  ∀ first second, Studio.Abreast M depth first second →
    (∃ fault, opening first = (.error fault, first) ∧ opening second = (.error fault, second)) ∨
    ∃ after last, opening first = (.ok (), after) ∧ opening second = (.ok (), last) ∧
      Studio.Abreast M (depth + 1) after last

theorem enter_deepens (region : DataRegion) (memory : Option MemorySection) :
    Deepens M depth (Act.data (DataDesk.enter region memory)) := by
  intro first second abreast
  rcases DataDesk.enter_together region memory abreast.desk with
    ⟨fault, failed, also_failed⟩ | ⟨after, last, entered, also_entered, deeper⟩
  · refine .inl ⟨fault, ?_, ?_⟩
    · rw [data_run, failed]
      rfl
    · rw [data_run, also_failed]
      rfl
  · refine .inr ⟨first.atDesk after, second.atDesk last, ?_, ?_, abreast.atDesk deeper⟩
    · rw [data_run, entered]
    · rw [data_run, also_entered]

theorem Deepens.locating {opening : Act ε Unit} (deepens : Deepens M depth opening)
    (location : Location) : Deepens M depth (Act.locating location opening) := by
  intro first second abreast
  rcases deepens first second abreast with
    ⟨fault, failed, also_failed⟩ | ⟨after, last, opened, also_opened, deeper⟩
  · refine .inl ⟨fault.locate location, ?_, ?_⟩
    · simp only [Act.locating, failed]
      rfl
    · simp only [Act.locating, also_failed]
      rfl
  · refine .inr ⟨after, last, ?_, ?_, deeper⟩
    · simp only [Act.locating, opened]
      rfl
    · simp only [Act.locating, also_opened]
      rfl

/-- The end of a region: it is left whatever the outcome of its body. -/
theorem leave_together {ending : Except Fault Unit → Except Fault Unit}
    (ends : ∀ here there, Agree Eq here there → Agree Eq (ending here) (ending there))
    {outcome other : Except Fault Unit} (agree : Agree Eq outcome other) {first second : Studio ε}
    (abreast : Studio.Abreast M (depth + 1) first second) :
    Agree Eq ((do Act.data DataDesk.exit; ofExcept (ending outcome) : Act ε Unit) first).1
        ((do Act.data DataDesk.exit; ofExcept (ending other) : Act ε Unit) second).1 ∧
      Studio.Abreast M depth
        ((do Act.data DataDesk.exit; ofExcept (ending outcome) : Act ε Unit) first).2
        ((do Act.data DataDesk.exit; ofExcept (ending other) : Act ε Unit) second).2 := by
  obtain ⟨after, last, exited, also_exited, above⟩ := DataDesk.exit_together abreast.desk
  rw [Computation.bind_run, Computation.bind_run, data_run, data_run, exited, also_exited]
  exact ⟨ends _ _ agree, abreast.atDesk above⟩

/-- A body inside a region, which is left when the body has ended. -/
theorem region_inStep {opening : Act ε Unit} (deepens : Deepens M depth opening)
    {body silent : Act ε Unit} (together : InStep (Studio.Abreast M (depth + 1)) Eq body silent)
    {ending : Except Fault Unit → Except Fault Unit}
    (ends : ∀ here there, Agree Eq here there → Agree Eq (ending here) (ending there)) :
    InStep (Studio.Abreast M depth) Eq
      (do opening; let outcome ← attempt body; Act.data DataDesk.exit; ofExcept (ending outcome))
      (do opening; let outcome ← attempt silent; Act.data DataDesk.exit
          ofExcept (ending outcome)) := by
  intro first second abreast
  rw [Computation.bind_run, Computation.bind_run]
  rcases deepens first second abreast with
    ⟨fault, failed, also_failed⟩ | ⟨after, last, opened, also_opened, deeper⟩
  · rw [failed, also_failed]
    exact ⟨.error fault, abreast⟩
  · rw [opened, also_opened]
    simp only
    rw [Computation.bind_run, Computation.bind_run]
    obtain ⟨agree, ended⟩ := together after last deeper
    exact leave_together ends agree ended

theorem dataRegion_inStep {body silent : Act ε Unit}
    (together : InStep (Studio.Abreast M (depth + 1)) Eq body silent) (region : DataRegion)
    (location : Location) :
    InStep (Studio.Abreast M depth) Eq (dataRegion region location body)
      (dataRegion region location silent) := by
  have here : InStep (Session.Abreast depth) Eq (do pure (← get).currentSection)
      (do pure (← get).currentSection) :=
    inStep_get.bind (fun _ _ abreast => inStep_pure abreast.currentSection)
  refine (session_inStep here).bind ?_
  rintro memory _ rfl
  exact region_inStep ((enter_deepens region memory).locating location) together
    (fun _ _ agree => Agree.mapError agree _)

theorem nestedRegion_inStep {body silent : Act ε Unit}
    (together : InStep (Studio.Abreast M (depth + 1)) Eq body silent) (region : DataRegion) :
    InStep (Studio.Abreast M depth) Eq (nestedRegion region body) (nestedRegion region silent) :=
  region_inStep (enter_deepens region none) together (fun _ _ agree => agree)

end Act

/-! ## Lists of statements -/

section Statements

variable {ε ι : Type} {M : ε → ε → Prop} {depth : Nat} {run : ι → Act ε Unit}
  {runRest : List ι → Act ε Unit}

/-- Run a statement, if there is one left. -/
def runLeft (run : ι → Act ε Unit) : Option ι → Act ε Unit
  | some statement => run statement
  | none => pure ()

theorem next_left
    (runs : ∀ first rest, runRest (first :: rest) = (do run first; runRest rest)) {first : ι}
    {left : Option ι} (here : InStep (Studio.Abreast M depth) Eq (run first) (runLeft run left))
    {rest others : List ι}
    (later : InStep (Studio.Abreast M depth) Eq (runRest rest) (runRest others)) :
    InStep (Studio.Abreast M depth) Eq (runRest (first :: rest))
      (runRest (left.toList ++ others)) := by
  rw [runs]
  cases left with
  | none => exact InStep.before here later
  | some other =>
      rw [Option.toList_some, List.singleton_append, runs]
      exact here.bind (fun _ _ _ => later)

end Statements

end TestProgram
