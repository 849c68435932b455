/-
# TestProgram.Phase -- the phases of a template and the life of a session

A template has three phases.  A session runs them once, in order, and is then
done; `enter` and `finish` say which steps are possible.
-/
namespace TestProgram

set_option autoImplicit false

inductive PhaseKind
  | pre | main | post
deriving DecidableEq, Repr

namespace PhaseKind

def name : PhaseKind → String
  | .pre => "pre"
  | .main => "main"
  | .post => "post"

/-- The name as a tag, with a capital letter. -/
def tag : PhaseKind → String
  | .pre => "Pre"
  | .main => "Main"
  | .post => "Post"

end PhaseKind

inductive Lifecycle
  | created | preRunning | mainRunning | postRunning | done
deriving DecidableEq, Repr

namespace Lifecycle

def tag : Lifecycle → String
  | .created => "Created"
  | .preRunning => "PreRunning"
  | .mainRunning => "MainRunning"
  | .postRunning => "PostRunning"
  | .done => "Done"

def isRunning : Lifecycle → Bool
  | .preRunning | .mainRunning | .postRunning => true
  | _ => false

def enter : Lifecycle → PhaseKind → Option Lifecycle
  | .created, .pre => some .preRunning
  | .preRunning, .main => some .mainRunning
  | .mainRunning, .post => some .postRunning
  | _, _ => none

def finish : Lifecycle → Option Lifecycle
  | .postRunning => some .done
  | _ => none

end Lifecycle
end TestProgram
