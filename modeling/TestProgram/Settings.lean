/-
# TestProgram.Settings -- settings of a session

Every setting has a default, so any part of them can be given, and a layer of
further settings replaces what it names.
-/
import TestProgram.Attribute
import TestProgram.Data.Store

namespace TestProgram

set_option autoImplicit false

structure Settings where
  seed : Nat := 0
  redefinition : Redefinition := .reject
  options : Attributes := []
  /-- The revision of the processor model. -/
  revision : Option String := none
  /-- All revisions the model includes. -/
  revisions : List String := []

/-- Settings of which any may be missing. -/
structure SettingsLayer where
  seed : Option Nat := none
  redefinition : Option Redefinition := none
  options : Attributes := []
  revision : Option String := none
  revisions : Option (List String) := none

namespace Settings

/-- Options are replaced one by one, the other settings as a whole. -/
def overlay (settings : Settings) (layer : SettingsLayer) : Settings where
  seed := layer.seed.getD settings.seed
  redefinition := layer.redefinition.getD settings.redefinition
  options := layer.options.foldl (fun held option => held.insert option.1 option.2)
    settings.options
  revision := layer.revision.or settings.revision
  revisions := layer.revisions.getD settings.revisions

/-- The settings before and after each of the changes, as far as they go, and how they
end. -/
def layered (settings : Settings) :
    List (Settings → Except Fault Settings) → List Settings × Except Fault Settings
  | [] => ([settings], .ok settings)
  | change :: rest =>
      match change settings with
      | .error fault => ([settings], .error fault)
      | .ok next =>
          let (states, outcome) := layered next rest
          (settings :: states, outcome)

def withSeed (settings : Settings) (seed : Nat) : Settings :=
  { settings with seed }

def isRevision (settings : Settings) (id : String) : Bool :=
  settings.revision == some id || settings.revisions.contains id

end Settings
end TestProgram
