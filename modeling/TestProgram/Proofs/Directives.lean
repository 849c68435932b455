/-
# TestProgram.Proofs.Directives -- what the statements of a region write

A statement of a data region first works out a directive, for which it may have to draw values,
and then writes it.  Working it out leaves the store alone (`DataStatement.aside_draft`), so
that all a statement of a region does to the store is to append its directive to the open section
(`DataStatement.perform_draft`).  A definition is the one statement that has no directive.

Which directive comes of using a definition is told without the function that builds it: any
values for a type, one length for a space, texts for a string, and nothing else
(`DataDefinition.directive_ok_iff`).
-/
import TestProgram.Proofs.Plans

namespace TestProgram

set_option autoImplicit false

open TestProgram.Computation

/-! ## Using a definition -/

/-- The directives that a definition prescribes for its uses. -/
inductive DataDefinition.Prescribes : DataDefinition → List Scalar → DataDirective → Prop
  | values {id text : String} {type : DataType} (values : List Scalar) :
      Prescribes ⟨id, text, .values type⟩ values (.values text type values)
  | space {id text : String} {fill : Int} (length : Nat) :
      Prescribes ⟨id, text, .space fill⟩ [.integer length] (.space text fill length)
  | strings {id text : String} {zeroTerminated : Bool} (texts : List String) :
      Prescribes ⟨id, text, .strings zeroTerminated⟩ (texts.map .text)
        (.strings text zeroTerminated texts)

theorem strings?_ok_iff {values : List Scalar} {texts : List String} :
    strings? values = .ok texts ↔ values = texts.map .text := by
  induction values generalizing texts with
  | nil => cases texts <;> simp [strings?]
  | cons value rest ih =>
      cases value with
      | text content =>
          constructor
          · intro read
            rw [strings?] at read
            cases later : strings? rest with
            | error shape =>
                rw [later] at read
                cases read
            | ok others =>
                rw [later] at read
                cases read
                rw [ih.mp later]
                rfl
          · intro same
            cases texts with
            | nil => cases same
            | cons first others =>
                obtain ⟨here, later⟩ : Scalar.text content = .text first ∧
                    rest = others.map .text := List.cons.inj same
                cases here
                rw [strings?, ih.mpr later]
                rfl
      | _ => cases texts <;> simp [strings?]

namespace DataDefinition

/-- A definition that is used as it prescribes comes to a directive, and to none otherwise. -/
theorem directive_ok_iff {definition : DataDefinition} {values : List Scalar}
    {directive : DataDirective} :
    definition.directive values = .ok directive ↔ definition.Prescribes values directive := by
  obtain ⟨id, text, form⟩ := definition
  constructor
  · intro comes
    simp only [DataDefinition.directive] at comes
    split at comes
    · cases comes
      exact .values values
    · split at comes
      · split at comes
        · cases comes
        · rename_i length natural
          cases comes
          have kept : length = (length.toNat : Int) := by omega
          rw [kept, Int.toNat_natCast]
          exact .space length.toNat
      · cases comes
    · split at comes
      · rename_i texts read
        cases comes
        rw [strings?_ok_iff.mp read]
        exact .strings texts
      · cases comes
  · rintro (values | length | texts)
    · rfl
    · simp [DataDefinition.directive]
    · simp only [DataDefinition.directive, strings?_ok_iff.mpr rfl]

theorem Prescribes.unique {definition : DataDefinition} {values : List Scalar}
    {one other : DataDirective} (first : definition.Prescribes values one)
    (second : definition.Prescribes values other) : one = other := by
  have same := (directive_ok_iff.mpr first).symm.trans (directive_ok_iff.mpr second)
  exact Except.ok.inj same

end DataDefinition

/-! ## Actions beside the store -/

namespace DataDesk

variable {α β : Type}

/-- The action leaves the store as it is, whether it fails or not. -/
def Aside (action : DataAction α) : Prop :=
  ∀ desk, (action desk).2.store = desk.store

theorem aside_pure (value : α) : Aside (pure value) :=
  fun _ => rfl

theorem aside_throw (fault : Fault) : Aside (throw fault : DataAction α) :=
  fun _ => rfl

theorem Aside.bind {first : DataAction α} {next : α → DataAction β} (here : Aside first)
    (there : ∀ value, Aside (next value)) : Aside (first >>= next) := by
  intro desk
  have same := here desk
  rw [bind_run]
  rcases run : first desk with ⟨_ | value, middle⟩
  · rw [run] at same
    exact same
  · rw [run] at same
    exact (there value middle).trans same

theorem aside_get {next : DataDesk → DataAction β} (there : ∀ desk, Aside (next desk)) :
    Aside (get >>= next) :=
  fun desk => there desk desk

theorem Aside.mapM {step : α → DataAction β} (each : ∀ item, Aside (step item)) :
    ∀ items : List α, Aside (items.mapM step)
  | [] => aside_pure []
  | item :: rest => by
      rw [List.mapM_cons]
      exact (each item).bind (fun _ => (Aside.mapM each rest).bind (fun _ => aside_pure _))

theorem aside_drawValue (argument : Argument) : Aside (drawValue argument) := by
  have draws : ∀ {α : Type} (sampler : Distribution.Sampler α), Aside (drawValue.draw sampler) :=
    fun _ _ => rfl
  cases argument with
  | value scalar => exact aside_pure scalar
  | random distribution => exact draws _
  | range lowest highest => exact (draws _).bind (fun _ => aside_pure _)
  | label reference => exact aside_throw _
  | address reference => exact aside_throw _

/-! ## Drafts -/

/-- The directive that some values come to through a definition. -/
def draftValues (id : String) (values : List Argument) : DataAction DataDirective := do
  match (← get).store.definition? id with
  | none => throw (Fault.of (.unknownDefinition id))
  | some definition =>
      let values ← values.mapM drawValue
      ExceptT.mk (pure (definition.directive values))

/-- The directive that aligns to some items. -/
def draftAlignment (items : Nat) : DataAction DataDirective := do
  ExceptT.mk (pure ((← get).store.alignment items))

theorem aside_ofExcept (outcome : Except Fault α) :
    Aside (ExceptT.mk (pure outcome) : DataAction α) :=
  fun _ => rfl

theorem aside_draftValues (id : String) (values : List Argument) :
    Aside (draftValues id values) := by
  refine aside_get (fun desk => ?_)
  cases desk.store.definition? id with
  | none => exact aside_throw _
  | some definition => exact (Aside.mapM aside_drawValue values).bind (fun _ => aside_ofExcept _)

theorem emit_draft (id : String) (values : List Argument) :
    emit id values = draftValues id values >>= push := by
  simp only [emit, draftValues, bind_assoc]
  refine congrArg (get >>= ·) (funext (fun desk => ?_))
  cases desk.store.definition? id with
  | none => rfl
  | some definition =>
      rw [bind_assoc]
      refine congrArg (values.mapM drawValue >>= ·) (funext (fun drawn => ?_))
      cases definition.directive drawn <;> rfl

theorem push_inside {desk : DataDesk} {region : DataSection}
    (inside : desk.store.current = some region) (directive : DataDirective) :
    push directive desk = (.ok (), { desk with store := { desk.store with
      current := some { region with directives := region.directives ++ [directive] } } }) := by
  simp only [push, update, DataStore.push, inside]

theorem push_outside {desk : DataDesk} (outside : desk.store.current = none)
    (directive : DataDirective) :
    push directive desk = (.error (Fault.of .noDataRegion), desk) := by
  simp only [push, update, DataStore.push, outside]

theorem align_draft (items : Nat) : align items = draftAlignment items >>= push := by
  simp only [align, draftAlignment, bind_assoc]
  refine congrArg (get >>= ·) (funext (fun desk => ?_))
  cases desk.store.alignment items <;> rfl

/-- A definition is made with a remark on what it shadows, or fails. -/
theorem define_run (definition : DataDefinition) (desk : DataDesk) :
    (∃ fault, desk.store.define definition = .error fault ∧
      define definition desk = (.error fault, desk)) ∨
    ∃ store engine, desk.store.define definition = .ok store ∧
      Engine.Alike engine desk.engine ∧ define definition desk = (.ok (), ⟨store, engine⟩) := by
  refine @update_run (fun store => store.define definition) _ ?_ desk
  split
  · exact .inr ⟨_, rfl⟩
  · exact .inl rfl

end DataDesk

namespace DataStatement

/-- The directive of a statement as it is worked out before it is written; a definition has
none. -/
def draft? : DataStatement → Option (DataAction DataDirective)
  | .define _ => none
  | .origin place => some (pure place.directive)
  | .align items => some (DataDesk.draftAlignment items)
  | .label name isGlobal =>
      some (pure (.label { name := .named name, isGlobal, scope := BlockId.root }))
  | .text content => some (pure (.text content))
  | .comment content => some (pure (.comment content))
  | .emit id values => some (DataDesk.draftValues id values)

variable {statement : DataStatement} {draft : DataAction DataDirective}

theorem aside_draft (drafts : statement.draft? = some draft) : DataDesk.Aside draft := by
  cases statement with
  | define definition => cases drafts
  | align items =>
      cases drafts
      exact DataDesk.aside_get (fun _ => DataDesk.aside_ofExcept _)
  | emit id values =>
      cases drafts
      exact DataDesk.aside_draftValues id values
  | _ =>
      cases drafts
      exact DataDesk.aside_pure _

/-- A statement with a directive works it out and writes it, and does nothing else. -/
theorem perform_draft (drafts : statement.draft? = some draft) :
    statement.perform = draft >>= DataDesk.push := by
  cases statement with
  | define definition => cases drafts
  | align items =>
      cases drafts
      exact DataDesk.align_draft items
  | emit id values =>
      cases drafts
      exact DataDesk.emit_draft id values
  | _ =>
      cases drafts
      rfl

theorem eq_define (drafts : statement.draft? = none) :
    ∃ definition, statement = .define definition := by
  cases statement with
  | define definition => exact ⟨definition, rfl⟩
  | _ => cases drafts

end DataStatement
end TestProgram
