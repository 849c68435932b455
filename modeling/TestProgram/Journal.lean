/-
# TestProgram.Journal -- what a session remarks on while it works

Each remark has a level and a wording.  A journal is the list of remarks in the
order in which they were made.
-/
import TestProgram.BlockId
import TestProgram.BlockKind
import TestProgram.LabelTarget
import TestProgram.MemorySection

namespace TestProgram

set_option autoImplicit false

inductive Level
  | debug | info | warning
deriving DecidableEq, Repr

namespace Level

def name : Level → String
  | .debug => "DEBUG"
  | .info => "INFO"
  | .warning => "WARN"

def rank : Level → Nat
  | .debug => 0
  | .info => 1
  | .warning => 2

end Level

inductive Remark
  | sealed (kind : BlockKind) (id : BlockId) (children : Nat)
  | expanded (kind : BlockKind) (id : BlockId) (streams : Nat)
  | enteringSection (memory : MemorySection)
  | defaultSituation (name situation : String)
  | weakDropped (name : String)
  | resolved (rendered : String) (target : LabelTarget)
  | configuringData (target : String) (itemSize : Nat)
  | shadowed (id kind : String)
  | openingData (target : String)
  | closingData (directives : Nat)
  | generating (seed : Nat)
  | phaseStarted (phase : PhaseKind)
  | phaseGenerated (phase : PhaseKind) (sequences : Nat)
  | noMainBody
deriving DecidableEq, Repr

namespace Remark

def level : Remark → Level
  | .weakDropped _ | .noMainBody => .warning
  | .generating _ | .phaseStarted _ | .phaseGenerated _ _ => .info
  | _ => .debug

def message : Remark → String
  | .sealed kind id children =>
      "sealed " ++ kind.name ++ " block " ++ id.render ++ s!" with {children} children"
  | .expanded kind id streams =>
      "expanded " ++ kind.name ++ " block " ++ id.render ++ s!" into {streams} stream(s)"
  | .enteringSection memory => "entering section " ++ memory.render
  | .defaultSituation name situation =>
      s!"default situation for '{name}' is now {situation}"
  | .weakDropped name => s!"weak label '{name}' dropped in favour of another declaration"
  | .resolved rendered target => "resolved " ++ rendered ++ " to " ++ target.render
  | .configuringData target itemSize =>
      s!"configuring data for {target} ({itemSize} bits per item)"
  | .shadowed id kind => s!"'{id}' shadows an earlier {kind}"
  | .openingData target => s!"opening data section for {target}"
  | .closingData directives => s!"closing data section with {directives} directive(s)"
  | .generating seed => s!"generating template with seed {seed}"
  | .phaseStarted phase => phase.name ++ " phase started"
  | .phaseGenerated phase sequences =>
      phase.name ++ s!" phase generated {sequences} sequence(s)"
  | .noMainBody => "template does not override `run`; the main phase is empty"

def render (remark : Remark) : String :=
  remark.level.name ++ " " ++ remark.message

end Remark

abbrev Journal := List Remark

/-- The lines of a journal from a level upwards. -/
def Journal.lines (journal : Journal) (lowest : Level) : List String :=
  (journal.filter (fun remark => lowest.rank ≤ remark.level.rank)).map Remark.render

end TestProgram
