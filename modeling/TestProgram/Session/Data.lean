/-
# TestProgram.Session.Data -- configuring data and writing regions

The configuration and every region end with their bodies, whether they fail or not.
-/
import TestProgram.Data.PageTable
import TestProgram.Session.Basic

namespace TestProgram

set_option autoImplicit false

namespace Act

variable {ε α : Type}

def data (body : DataAction α) : Act ε α :=
  session (Action.data body)

/-- The one configuration of a template's data, with a body of definitions. -/
def configureData (config : DataConfig) (location : Location) (body : Act ε Unit) :
    Act ε Unit := do
  locating location (data (DataDesk.beginConfig config))
  let outcome ← attempt body
  data DataDesk.endConfig
  ofExcept (located location outcome)

/-- An outermost region, placed in the current section. -/
def dataRegion (region : DataRegion) (location : Location) (body : Act ε Unit) : Act ε Unit := do
  let memory ← session (do pure (← get).currentSection)
  locating location (data (DataDesk.enter region memory))
  let outcome ← attempt body
  data DataDesk.exit
  ofExcept (located location outcome)

/-- A region inside a region; it writes into the section of the outermost one. -/
def nestedRegion (region : DataRegion) (body : Act ε Unit) : Act ε Unit := do
  data (DataDesk.enter region none)
  let outcome ← attempt body
  data DataDesk.exit
  ofExcept outcome

end Act
end TestProgram
