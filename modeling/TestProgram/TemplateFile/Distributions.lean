/-
# TestProgram.TemplateFile.Distributions -- building the distributions of a file

A named distribution may refer to others by their names, in any order but not in a
circle.  `buildNamed` builds one with everything it refers to and keeps what it has
built, so that nothing is built twice.  A distribution that is being built is taken
out of the specifications that can still be entered, which is why building ends.
-/
import TestProgram.AttributeShape
import TestProgram.TemplateFile.Basic

namespace TestProgram.TemplateFile

set_option autoImplicit false

/-- A computation that keeps the distributions built so far. -/
abbrev Building (α : Type) := ExceptT Fault (StateM (KeyMap Distribution)) α

theorem length_erase_lt {α : Type} {specs : KeyMap α} {name : String} {held : α}
    (found : specs.find? name = some held) : (specs.erase name).length < specs.length := by
  induction specs with
  | nil => simp [KeyMap.find?] at found
  | cons entry rest ih =>
    obtain ⟨key, value⟩ := entry
    unfold KeyMap.erase at ih ⊢
    by_cases same : key = name
    · have := List.length_filter_le (fun pair : String × α => pair.1 != name) rest
      simp only [List.filter_cons, same, bne_self_eq_false, Bool.false_eq_true, if_false,
        List.length_cons]
      omega
    · have := ih (by simpa [KeyMap.find?, Ne.symm same] using found)
      simp only [List.filter_cons, bne_iff_ne.2 same, if_true, List.length_cons]
      omega

/-- What a range of the distribution `name` contributes; `nested` builds the distribution
it may refer to. -/
def rangeValue (name : String) (nested : String → Building Distribution) (value : Attribute) :
    Building RangeValue :=
  match value with
  | .list items => do
      let members ← ofExcept (items.mapM (Attribute.toScalar "collection member"))
      pure (.collection members)
  | .map _ =>
      match value.distributionName? with
      | some other => do
          let distribution ← nested other
          pure (.nested distribution)
      | none => throw (Fault.of (.rangeValueShape name))
  | _ => do
      let scalar ← ofExcept (value.toScalar "range value")
      pure (.scalar scalar)
where
  ofExcept {α : Type} (outcome : Except Fault α) : Building α := fun built => (outcome, built)

def range (name : String) (nested : String → Building Distribution) (spec : FileRange) :
    Building ValueRange := do
  let value ← rangeValue name nested spec.value
  match ValueRange.of value spec.bias with
  | .ok range => pure range
  | .error fault => throw fault

/-- The distribution of some ranges under its name. -/
def finish (name : String) (ranges : List ValueRange) : Building Distribution := do
  match Distribution.build ranges with
  | .ok distribution =>
      modify (fun built => built.insert name distribution)
      pure distribution
  | .error fault => throw (fault.withNote s!"in distribution '{name}'")

/-- `specs` holds the distributions that are not being built, `visiting` the names of
those that are. -/
def buildNamed (specs : KeyMap (List FileRange)) (visiting : List String) (name : String) :
    Building Distribution := do
  match (← get).find? name with
  | some distribution => pure distribution
  | none =>
      if visiting.contains name then throw (Fault.of (.selfReference name))
      else
        match _found : specs.find? name with
        | none => throw (Fault.of (.unknownDistribution name))
        | some ranges => do
            let ranges ← ranges.mapM
              (range name (buildNamed (specs.erase name) (name :: visiting)))
            finish name ranges
termination_by specs.length
decreasing_by exact length_erase_lt _found

/-- Every distribution of a table, in the order of their names. -/
def buildAll (specs : KeyMap (List FileRange)) : Building Unit :=
  (specs.map Prod.fst).forM (fun name => do
    let _ ← buildNamed specs [] name
    pure ())

end TestProgram.TemplateFile
