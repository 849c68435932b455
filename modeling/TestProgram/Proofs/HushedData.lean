/-
# TestProgram.Proofs.HushedData -- texts and comments in data

The texts and comments of a data section are directives of it, and nothing else depends on
them: a section without them is `hushed`, and two stores that differ in nothing else go on to
differ in nothing else (`DataStore.Alike`).  So each statement of a region has the same outcome
on both, and a text or a comment can be left out on one side (`DataDesk.text_unseen`).

That a text is written at all takes an open section.  There is one inside every region, which
is why the relation keeps the depth of regions (`DataDesk.Alike`).
-/
import TestProgram.Data.PageTable
import TestProgram.Proofs.InStep

namespace TestProgram

set_option autoImplicit false

open Strategy (Agree)
open TestProgram.Computation

/-! ## Stores -/

/-- Texts and comments among the directives. -/
def DataDirective.isRemark : DataDirective → Bool
  | .text _ | .comment _ => true
  | _ => false

/-- The section without its texts and comments. -/
def DataSection.hushed (region : DataSection) : DataSection :=
  { region with directives := region.directives.filter (fun directive => !directive.isRemark) }

namespace DataStore

/-- Two stores that differ in texts and comments only. -/
structure Alike (here there : DataStore) : Prop where
  state : here.state = there.state
  config : here.config = there.config
  redefinition : here.redefinition = there.redefinition
  definitions : here.definitions = there.definitions
  depth : here.depth = there.depth
  current : here.current.map DataSection.hushed = there.current.map DataSection.hushed
  sections : here.sections.map DataSection.hushed = there.sections.map DataSection.hushed

variable {here there : DataStore}

theorem beginConfig_agree (alike : Alike here there) (config : DataConfig) :
    Agree Alike (here.beginConfig config) (there.beginConfig config) := by
  unfold beginConfig
  rw [alike.state]
  split
  · exact .ok { alike with state := rfl, config := rfl }
  · exact .error _

theorem endConfig_alike (alike : Alike here there) : Alike here.endConfig there.endConfig := by
  unfold endConfig
  rw [alike.state]
  split
  · exact { alike with state := rfl }
  · exact alike

theorem define_agree (alike : Alike here there) (definition : DataDefinition) :
    Agree Alike (here.define definition) (there.define definition) := by
  simp only [define, definition?, alike.definitions, alike.redefinition]
  split
  · exact .error _
  · exact .ok { alike with redefinition := rfl, definitions := rfl }

/-- A region can be entered on both sides or on neither. -/
theorem enter_agree (alike : Alike here there) (region : DataRegion)
    (memory : Option MemorySection) :
    Agree Alike (here.enter region memory) (there.enter region memory) := by
  simp only [enter, alike.state, alike.config, alike.depth]
  split
  · split
    · exact .ok { alike with state := rfl, config := rfl, depth := rfl, current := rfl }
    · exact .ok { alike with state := rfl, config := rfl, depth := rfl }
  · exact .error _

theorem exit_agree (alike : Alike here there) : Agree Alike here.exit there.exit := by
  simp only [exit, alike.depth]
  split
  · exact .error _
  · split
    · refine .ok { alike with depth := rfl, current := rfl, sections := ?_ }
      have current : here.current.toList.map DataSection.hushed =
          there.current.toList.map DataSection.hushed := by
        rw [← Option.toList_map, ← Option.toList_map, alike.current]
      rw [List.map_append, List.map_append, alike.sections, current]
    · exact .ok { alike with depth := rfl }

theorem push_agree (alike : Alike here there) (directive : DataDirective) :
    Agree Alike (here.push directive) (there.push directive) := by
  have same := alike.current
  unfold push
  cases first : here.current with
  | none =>
      rw [first, Option.map_none, eq_comm, Option.map_eq_none_iff] at same
      rw [same]
      exact .error _
  | some region =>
      rw [first, Option.map_some, eq_comm, Option.map_eq_some_iff] at same
      obtain ⟨other, second, hushed⟩ := same
      rw [second]
      refine .ok { alike with current := ?_ }
      simp only [Option.map_some, DataSection.hushed, List.filter_append, Option.some.injEq,
        DataSection.mk.injEq] at hushed ⊢
      obtain ⟨target, isGlobal, inSeparateFile, memory, directives⟩ := hushed
      exact ⟨target.symm, isGlobal.symm, inSeparateFile.symm, memory.symm, by rw [directives]⟩

/-- A store has a section open when it is inside a region. -/
def Sound (store : DataStore) : Prop :=
  0 < store.depth → store.current.isSome = true

theorem push_remark (alike : Alike here there) (sound : here.Sound) (inside : 0 < here.depth)
    {directive : DataDirective} (remark : directive.isRemark = true) :
    ∃ after, here.push directive = .ok after ∧ Alike after there ∧ after.Sound ∧
      after.depth = here.depth := by
  obtain ⟨region, found⟩ := Option.isSome_iff_exists.mp (sound inside)
  refine ⟨{ here with current := some { region with directives := region.directives ++ [directive] } },
    by rw [push, found], { alike with current := ?_ }, fun _ => rfl, rfl⟩
  have same := alike.current
  rw [found] at same
  rw [← same]
  simp [DataSection.hushed, remark]

theorem alignment_alike (alike : Alike here there) (items : Nat) :
    here.alignment items = there.alignment items := by
  unfold alignment itemSize
  rw [alike.config]

end DataStore

/-! ## Desks -/

namespace DataDesk

/-- Two desks at the same depth of regions that draw the same and differ in texts and comments
only. -/
structure Alike (depth : Nat) (here there : DataDesk) : Prop where
  store : DataStore.Alike here.store there.store
  engine : Engine.Alike here.engine there.engine
  sound : here.store.Sound
  depth_is : here.store.depth = depth

variable {depth : Nat}

theorem remark_inStep (remarked other : Remark) :
    InStep (Alike depth) Eq (remark remarked) (remark other) :=
  inStep_modify (fun _ _ alike => { alike with engine := alike.engine })

theorem update_inStep {change : DataStore → Except Fault DataStore}
    (kept : ∀ here there, DataStore.Alike here there →
      Agree DataStore.Alike (change here) (change there))
    (sound : ∀ here after, here.Sound → here.depth = depth → change here = .ok after →
      after.Sound ∧ after.depth = depth) :
    InStep (Alike depth) Eq (update change) (update change) := by
  intro first second alike
  have agree := kept _ _ alike.store
  unfold update
  cases changed : change first.store with
  | error fault =>
      rw [changed] at agree
      rw [Agree.of_error agree]
      exact ⟨.error fault, alike⟩
  | ok store =>
      obtain ⟨still_sound, still_deep⟩ := sound _ _ alike.sound alike.depth_is changed
      rw [changed] at agree
      obtain ⟨other, same, related⟩ := Agree.of_ok agree
      rw [same]
      exact ⟨.ok rfl, { alike with store := related, sound := still_sound, depth_is := still_deep }⟩

theorem push_inStep (directive : DataDirective) :
    InStep (Alike depth) Eq (push directive) (push directive) := by
  refine update_inStep (fun _ _ alike => DataStore.push_agree alike directive) ?_
  intro here after sound depth_is pushed
  unfold DataStore.push at pushed
  split at pushed
  · cases pushed
    exact ⟨fun _ => rfl, depth_is⟩
  · cases pushed

/-- Inside a region a text or a comment makes no difference. -/
theorem push_unseen {directive : DataDirective} (remark : directive.isRemark = true) :
    InStep (Alike (depth + 1)) Eq (push directive) (pure ()) := by
  intro first second alike
  have inside : 0 < first.store.depth := by rw [alike.depth_is]; omega
  obtain ⟨after, pushed, store, sound, same⟩ :=
    DataStore.push_remark alike.store alike.sound inside remark
  simp only [push, update, pushed]
  exact ⟨.ok rfl, { alike with store, sound, depth_is := same.trans alike.depth_is }⟩

theorem text_unseen (content : String) :
    InStep (Alike (depth + 1)) Eq (text content) (pure ()) :=
  push_unseen rfl

theorem comment_unseen (content : String) :
    InStep (Alike (depth + 1)) Eq (comment content) (pure ()) :=
  push_unseen rfl

theorem get_inStep {β : Type} {W : β → β → Prop} {next : DataDesk → DataAction β}
    (later : ∀ here there, Alike depth here there → InStep (Alike depth) W (next here) (next there)) :
    InStep (Alike depth) W (get >>= next) (get >>= next) :=
  inStep_get.bind later

theorem beginConfig_inStep (config : DataConfig) :
    InStep (Alike depth) Eq (beginConfig config) (beginConfig config) := by
  refine InStep.bind (V := Eq) (update_inStep ?_ ?_) (fun _ _ _ => remark_inStep _ _)
  · exact fun _ _ alike => DataStore.beginConfig_agree alike config
  · intro here after sound depth_is began
    unfold DataStore.beginConfig at began
    split at began
    · cases began
      exact ⟨sound, depth_is⟩
    · cases began

theorem endConfig_inStep : InStep (Alike depth) Eq endConfig endConfig := by
  refine inStep_modify (fun here there alike => ?_)
  have kept : here.store.endConfig.Sound ∧ here.store.endConfig.depth = depth := by
    unfold DataStore.endConfig
    split
    · exact ⟨alike.sound, alike.depth_is⟩
    · exact ⟨alike.sound, alike.depth_is⟩
  exact { alike with
    store := DataStore.endConfig_alike alike.store, sound := kept.1, depth_is := kept.2 }

theorem define_inStep (definition : DataDefinition) :
    InStep (Alike depth) Eq (define definition) (define definition) := by
  refine get_inStep (fun here there alike => ?_)
  have earlier : here.store.definition? definition.id = there.store.definition? definition.id := by
    rw [DataStore.definition?, alike.store.definitions]
    rfl
  rw [earlier]
  refine InStep.bind (V := Eq) (update_inStep ?_ ?_) (fun _ _ _ => ?_)
  · exact fun _ _ alike => DataStore.define_agree alike definition
  · intro here after sound depth_is defined
    unfold DataStore.define at defined
    split at defined
    · cases defined
    · cases defined
      exact ⟨sound, depth_is⟩
  · split
    · exact remark_inStep _ _
    · exact inStep_pure rfl

/-! ## Statements of a region -/

theorem drawValue_inStep (argument : Argument) :
    InStep (Alike depth) Eq (drawValue argument) (drawValue argument) := by
  have draws : ∀ {α : Type} (sampler : Distribution.Sampler α),
      InStep (Alike depth) Eq (drawValue.draw sampler) (drawValue.draw sampler) := by
    intro α sampler first second alike
    have drawn := Generation.sample_inStep sampler first.engine second.engine alike.engine
    exact ⟨drawn.1, { alike with engine := drawn.2 }⟩
  cases argument with
  | value scalar => exact inStep_pure rfl
  | random distribution => exact draws _
  | range lowest highest =>
      refine (draws _).bind (fun number other same => ?_)
      rw [same]
      exact inStep_pure rfl
  | label reference => exact inStep_throw _
  | address reference => exact inStep_throw _

theorem emit_inStep (id : String) (values : List Argument) :
    InStep (Alike depth) Eq (emit id values) (emit id values) := by
  refine get_inStep (fun here there alike => ?_)
  have definition : here.store.definition? id = there.store.definition? id := by
    rw [DataStore.definition?, alike.store.definitions]
    rfl
  rw [definition]
  split
  · exact inStep_throw _
  · refine (inStep_mapM_same values (fun value _ => drawValue_inStep value)).bind ?_
    rintro drawn _ rfl
    split
    · exact push_inStep _
    · exact inStep_throw _

theorem align_inStep (items : Nat) : InStep (Alike depth) Eq (align items) (align items) := by
  refine get_inStep (fun here there alike => ?_)
  rw [DataStore.alignment_alike alike.store]
  split
  · exact push_inStep _
  · exact inStep_throw _

theorem pageTable_inStep (preparator adaptor : Option String) (entry : PageTableEntry) :
    InStep (Alike depth) Eq ((PageTable.through preparator adaptor).emit entry)
      ((PageTable.through preparator adaptor).emit entry) := by
  have written : ∀ (id : String) (content : String) (values : List Argument),
      InStep (Alike depth) Eq (do comment content; emit id values)
        (do comment content; emit id values) :=
    fun id content values => (push_inStep _).bind (fun _ _ _ => emit_inStep id values)
  cases entry with
  | attributes attributes =>
      cases preparator with
      | none => exact inStep_throw _
      | some id => exact written id _ _
  | memory object =>
      cases adaptor with
      | none => exact inStep_throw _
      | some id => exact written id _ _

/-! ## Regions -/

/-- An operation of the store with a remark after it comes to what the store comes to. -/
theorem update_run {change : DataStore → Except Fault DataStore} {remarks : DataAction Unit}
    (unseen : remarks = pure () ∨ ∃ remarked, remarks = remark remarked) (desk : DataDesk) :
    (∃ fault, change desk.store = .error fault ∧
      (update change >>= fun _ => remarks) desk = (.error fault, desk)) ∨
    ∃ store engine, change desk.store = .ok store ∧ Engine.Alike engine desk.engine ∧
      (update change >>= fun _ => remarks) desk = (.ok (), ⟨store, engine⟩) := by
  rw [Computation.bind_run]
  unfold update
  cases changed : change desk.store with
  | error fault => exact .inl ⟨fault, rfl, rfl⟩
  | ok store =>
      rcases unseen with rfl | ⟨remarked, rfl⟩
      · exact .inr ⟨store, desk.engine, rfl, rfl, rfl⟩
      · exact .inr ⟨store, { desk.engine with journal := desk.engine.journal ++ [remarked] },
          rfl, rfl, rfl⟩

theorem enter_run (region : DataRegion) (memory : Option MemorySection) (desk : DataDesk) :
    (∃ fault, desk.store.enter region memory = .error fault ∧
      enter region memory desk = (.error fault, desk)) ∨
    ∃ store engine, desk.store.enter region memory = .ok store ∧
      Engine.Alike engine desk.engine ∧ enter region memory desk = (.ok (), ⟨store, engine⟩) := by
  refine @update_run (fun store => store.enter region memory) _ ?_ desk
  split
  · exact .inr ⟨_, rfl⟩
  · exact .inl rfl

theorem exit_run (desk : DataDesk) :
    (∃ fault, desk.store.exit = .error fault ∧ exit desk = (.error fault, desk)) ∨
    ∃ store engine, desk.store.exit = .ok store ∧
      Engine.Alike engine desk.engine ∧ exit desk = (.ok (), ⟨store, engine⟩) := by
  refine @update_run DataStore.exit _ ?_ desk
  split
  · exact .inr ⟨_, rfl⟩
  · exact .inl rfl

/-- A region is entered on both sides, and one deeper then, or on neither. -/
theorem enter_together (region : DataRegion) (memory : Option MemorySection)
    {first second : DataDesk} (alike : Alike depth first second) :
    (∃ fault, enter region memory first = (.error fault, first) ∧
      enter region memory second = (.error fault, second)) ∨
    ∃ after last, enter region memory first = (.ok (), after) ∧
      enter region memory second = (.ok (), last) ∧ Alike (depth + 1) after last := by
  have agree := DataStore.enter_agree alike.store region memory
  rcases enter_run region memory first with ⟨fault, failed, run⟩ | ⟨store, engine, entered, drawn, run⟩
  · rw [failed] at agree
    rcases enter_run region memory second with ⟨_, also_failed, also_run⟩ | ⟨_, _, also_entered, _, _⟩
    · rw [also_failed] at agree
      cases Agree.of_error agree
      exact .inl ⟨fault, run, also_run⟩
    · rw [also_entered] at agree
      cases Agree.of_error agree
  · rw [entered] at agree
    rcases enter_run region memory second with
      ⟨_, also_failed, _⟩ | ⟨other, last, also_entered, also_drawn, also_run⟩
    · rw [also_failed] at agree
      cases agree
    · rw [also_entered] at agree
      obtain ⟨_, same, related⟩ := Agree.of_ok agree
      cases same
      have deeper : store.Sound ∧ store.depth = depth + 1 := by
        have sound := alike.sound
        have depth_is := alike.depth_is
        unfold DataStore.enter at entered
        split at entered
        · split at entered
          · rename_i outside
            cases entered
            exact ⟨fun _ => rfl, by rw [← depth_is, outside]⟩
          · cases entered
            exact ⟨fun _ => sound (by omega), by rw [← depth_is]⟩
        · cases entered
      exact .inr ⟨_, _, run, also_run, ⟨related, drawn.trans (alike.engine.trans also_drawn.symm),
        deeper.1, deeper.2⟩⟩

/-- A region that was entered is left on both sides. -/
theorem exit_together {first second : DataDesk} (alike : Alike (depth + 1) first second) :
    ∃ after last, exit first = (.ok (), after) ∧ exit second = (.ok (), last) ∧
      Alike depth after last := by
  have agree := DataStore.exit_agree alike.store
  have depth_is := alike.depth_is
  have sound := alike.sound
  have left : ∃ store, first.store.exit = .ok store ∧ store.Sound ∧ store.depth = depth := by
    unfold DataStore.exit
    rw [depth_is, if_neg (Nat.succ_ne_zero depth)]
    split
    · rename_i outermost
      refine ⟨_, rfl, fun inside => absurd inside (Nat.lt_irrefl 0), ?_⟩
      change 0 = depth
      omega
    · exact ⟨_, rfl, fun _ => sound (by omega), by simp⟩
  obtain ⟨store, exited, still_sound, above⟩ := left
  rcases exit_run first with ⟨_, failed, _⟩ | ⟨_, engine, again, drawn, run⟩
  · rw [failed] at exited
    cases exited
  · rw [again] at exited
    cases exited
    rw [again] at agree
    obtain ⟨other, also_exited, related⟩ := Agree.of_ok agree
    rcases exit_run second with ⟨_, also_failed, _⟩ | ⟨_, last, also_again, also_drawn, also_run⟩
    · rw [also_failed] at also_exited
      cases also_exited
    · rw [also_again] at also_exited
      cases also_exited
      exact ⟨_, _, run, also_run, ⟨related, drawn.trans (alike.engine.trans also_drawn.symm),
        still_sound, above⟩⟩

end DataDesk
end TestProgram
