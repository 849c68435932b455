/-
# TestProgram.Situation -- named execution contexts of calls

A situation has a name and attributes, which are scalars or distributions, and may
provide test data.  `DefaultSituations` holds the situation a call gets by its name
when it brings none; the last binding of a name counts.
-/
import TestProgram.Distribution

namespace TestProgram

set_option autoImplicit false

inductive SituationAttribute
  | scalar (value : Scalar)
  | distribution (distribution : Distribution)

def SituationAttribute.render : SituationAttribute → String
  | .scalar value => value.render
  | .distribution _ => "<dist>"

structure Situation where
  name : String
  attributes : KeyMap SituationAttribute := []
  providesData : Bool := false

def Situation.render (situation : Situation) : String :=
  if situation.attributes.isEmpty then situation.name
  else
    situation.name ++ "("
      ++ Text.commas (situation.attributes.map (fun (key, value) => key ++ ": " ++ value.render))
      ++ ")"

abbrev DefaultSituations := KeyMap Situation

namespace DefaultSituations

def bind (defaults : DefaultSituations) (names : List String) (situation : Situation) :
    DefaultSituations :=
  names.foldl (fun table name => table.insert name situation) defaults

end DefaultSituations
end TestProgram
