/-
# TestProgram.Proofs.SectionCalls -- in which section calls and labels come to stand

A call that brings no memory section gets the one that is open when it is added, and so does the
placeholder of a block when it is closed.  Labels, texts and comments have no section of their
own: they stand where the call stands that carries them.  This call may be added when the section
is over, it may bring another one, and a block that was opened in the section may be closed
outside of it.  So a label that was declared in a section need not stand in it
(`label_left_by_section`), and what can be said of it is which call it goes by
(`declared_in_section_stands`).
-/
import TestProgram.Proofs.Carriers

namespace TestProgram

set_option autoImplicit false

/-! ## Phases -/

/-- The body of a phase that succeeds ends in the calls of the phase. -/
theorem Plan.endsIn {ε : Type} {kind : PhaseKind} {body : Plan ε Unit} {studio after : Studio ε}
    {phase : Phase} (closed : studio.session.blocks = [])
    (run : Act.runPhase kind body.run studio = (.ok phase, after)) :
    (Act.bodyStart kind studio).session.EndsIn (body.deeds (Act.bodyStart kind studio))
      phase.block.calls := by
  obtain ⟨begun, _, _, starts, _⟩ := Act.runPhase_ok run
  have same : Act.bodyStart kind studio = begun := congrArg Prod.snd starts
  have not_created : begun.session.lifecycle ≠ .created :=
    Lifecycle.ne_created_of_running (Act.startPhase_ok closed starts).1
  obtain ⟨block, ends⟩ := Act.runPhase_ends run
  have reached : (Act.bodyEnd kind body.run studio).session =
      begun.session.through (body.deeds begun) := by
    rw [Act.bodyEnd, same]
    exact body.session_run begun
  rw [reached] at ends
  rw [same]
  refine ⟨body.isLate begun not_created, not_created, block, ends.only, ?_⟩
  rw [ends.sealed]
  rfl

/-- **In which section calls and labels come to stand.**  Whatever the body of a phase does, a
call without a section of its own that is added while a section is open, and the placeholder of a
block that is closed then, stand in this section.  A label, text or comment declared then has one
of the fates of what waits.  So it stands in the section if this is still open when the next call
is hung into the tree, as long as the call brings no other and stays in the tree. -/
theorem declared_in_section_stands {ε : Type} (kind : PhaseKind) (body : Plan ε Unit)
    (studio after : Studio ε) (phase : Phase) (closed : studio.session.blocks = [])
    (run : Act.runPhase kind body.run studio = (.ok phase, after)) (before rest : List Deed)
    (deed : Deed) (split : body.deeds (Act.bodyStart kind studio) = before ++ deed :: rest)
    (memory : MemorySection)
    (inside : ((Act.bodyStart kind studio).session.through before).currentSection = some memory) :
    let now := (Act.bodyStart kind studio).session.through before
    let next := (deed.perform now).2
    (∀ call, deed.hung? now = some call → deed.ownSection? = none →
      call.memory = some memory ∧
        (next.retainsInnermost rest = true → call ∈ phase.block.calls)) ∧
    ∀ item, deed.item? now = some item → (deed.perform now).1.isOk = true →
      next.Fate phase.block.calls item rest ∧
      ∀ waiting taking later, rest = waiting ++ taking :: later → next.KeepsWaiting waiting →
        (taking.hung? (next.through waiting)).isSome = true → taking.ownSection? = none →
        (next.through waiting).currentSection = some memory →
        (taking.perform (next.through waiting)).2.retainsInnermost later = true →
        ∃ call ∈ phase.block.calls, call.Carries item ∧ call.memory = some memory := by
  intro now next
  have ends : now.EndsIn (deed :: rest) phase.block.calls := by
    have whole := Plan.endsIn closed run
    rw [split] at whole
    exact whole.through
  refine ⟨fun call hangs none_brought => ⟨?_, ends.hung hangs⟩, fun item declared succeeds => ?_⟩
  · rw [deed.memory_of_hung hangs, none_brought, inside]
    rfl
  · have fate := ends.tail.fate (Session.declared_waits declared succeeds)
    refine ⟨fate, ?_⟩
    rintro waiting taking later rfl keeps hangs none_brought still_inside retained
    exact (fate.after keeps).stands hangs none_brought still_inside retained

namespace SectionCalls

def text : MemorySection :=
  ⟨.text, 0, 0, none⟩

def written : Location :=
  .caller "template" 1 1

/-- A label, and an instruction behind it. -/
def labelled : Plan Unit Unit :=
  .bind (.declare (.label "here") written) fun _ => .addCall { name := "nop" } written

/-- A section with nothing but a label, and an instruction behind it. -/
def unlabelled : Plan Unit Unit :=
  .bind (.inSection text written (.declare (.label "here") written))
    fun _ => .addCall { name := "nop" } written

end SectionCalls

open SectionCalls

/-- The label of a section goes by the call behind it, which is added in the section. -/
theorem declared_in_section_stands_there :
    ∃ phase after, Act.runPhase .pre (Plan.inSection text written labelled).run
        ⟨Session.new {}, ()⟩ = (.ok phase, after) ∧
      ∃ call ∈ phase.block.calls,
        call.Carries (.label { name := .named "here", scope := BlockId.root }) ∧
          call.memory = some text := by
  have succeeds : (Act.runPhase .pre (Plan.inSection text written labelled).run
      ⟨Session.new {}, ()⟩).1.isOk = true := by decide +kernel
  obtain ⟨phase, after, run⟩ := Act.exists_ok succeeds
  have holds := declared_in_section_stands .pre (.inSection text written labelled)
    ⟨Session.new {}, ()⟩ after phase rfl run [.enterSection text written]
    [.addCall { name := "nop" } written, .leaveSection 0] (.declare (.label "here") written) rfl
    text rfl
  obtain ⟨_, stands⟩ := holds.2 _ rfl rfl
  exact ⟨phase, after, run, stands [] _ _ rfl trivial rfl rfl rfl rfl⟩

/-- A label at the end of a section is carried by the call behind the section, which stands in
none. -/
theorem label_left_by_section :
    ¬ ∀ (memory : MemorySection) (location : Location) (inner last : Plan Unit Unit)
        (studio after : Studio Unit) (phase : Phase), studio.session.blocks = [] →
      Act.runPhase .pre (Plan.bind (.inSection memory location inner) fun _ => last).run studio =
        (.ok phase, after) →
      let opened : Studio Unit := (Act.session (Session.enterSection memory location)
        (Act.bodyStart .pre studio)).2
      ∀ (before rest : List Deed) (deed : Deed), inner.deeds opened = before ++ deed :: rest →
        ∀ item, deed.item? (opened.session.through before) = some item →
          (deed.perform (opened.session.through before)).1.isOk = true →
          ∃ call ∈ phase.block.calls, call.Carries item ∧ call.memory = some memory := by
  intro always
  have succeeds : (Act.runPhase .pre unlabelled.run ⟨Session.new {}, ()⟩).1.isOk = true := by
    decide +kernel
  obtain ⟨phase, after, run⟩ := Act.exists_ok succeeds
  have elsewhere : (Act.runPhase .pre unlabelled.run ⟨Session.new {}, ()⟩).1.toOption.all
      (fun phase => phase.block.calls.all (fun call => call.memory.isNone)) = true := by
    decide +kernel
  rw [run] at elsewhere
  obtain ⟨call, listed, carries, placed⟩ := always text written
    (.declare (.label "here") written) (.addCall { name := "nop" } written)
    ⟨Session.new {}, ()⟩ after phase rfl run [] [] _ rfl _ rfl rfl
  have outside := List.all_eq_true.mp elsewhere call listed
  rw [placed] at outside
  cases outside

end TestProgram
