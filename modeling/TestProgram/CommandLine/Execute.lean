/-
# TestProgram.CommandLine.Execute -- what a command does

`run` prints the listing of a template or writes it to a file, `check` only counts
its instructions.  A command sees files through `read`, gives what it prints and the
file it writes, and ends with exit code 0, or 1 after a fault, or 2 if the words
made no command.
-/
import TestProgram.CommandLine.FileTree
import TestProgram.CommandLine.Usage
import TestProgram.Listing
import TestProgram.TemplateFile.Read
import TestProgram.TemplateFile.Run

namespace TestProgram.CommandLine

set_option autoImplicit false

/-- How files are read: their content, or the reason why there is none. -/
abbrev FileReader := String → Except String String

structure Outcome where
  exit : Nat
  output : String := ""
  /-- Lines for the error output. -/
  errors : List String := []
  /-- A file to be written, with its content. -/
  written : Option (String × String) := none
  journal : Journal := []

def readSource (read : FileReader) (path : String) : Except Fault String :=
  match read path with
  | .ok source => .ok source
  | .error reason => .error (Fault.of (.unreadable path reason))

def loadTemplate (read : FileReader) (path : String) : Except Fault TemplateFile := do
  TemplateFile.parse (← readSource read path)

/-- Settings with those of a file laid over them. -/
def overlayFile (read : FileReader) (settings : Settings) (path : String) :
    Except Fault Settings := do
  settings.overlayText (← readSource read path)

/-- The settings of a run: those of the template, then of the settings file, then the
seed of the command line. -/
def runSettings (read : FileReader) (file : TemplateFile) (arguments : RunArguments) :
    Except Fault Settings := do
  let settings ← match arguments.config with
    | some path => overlayFile read file.ownSettings path
    | none => .ok file.ownSettings
  .ok (arguments.seed.elim settings settings.withSeed)

def treeListing (generated : Generated) : String :=
  String.join (generated.phases.map (fun phase =>
    line ("// " ++ phase.kind.name ++ " tree") ++ phase.block.outline))

def listing (generated : Generated) (tree : Bool) : String :=
  (if tree then treeListing generated else "") ++ generated.render

def reported (fault : Fault) (journal : Journal) : Outcome :=
  let report := fault.report
  { exit := 1
    errors := ("error: " ++ report.headline) :: report.remarks.map ("note: " ++ ·)
    journal }

/-- Generate a file, and what is made of it. -/
def generating (file : TemplateFile) (settings : Settings) (done : Generated → Outcome) :
    Outcome :=
  let (outcome, studio) := file.generate 0 settings {}
  let journal := studio.session.engine.journal
  match outcome with
  | .ok generated => { done generated with journal }
  | .error fault => reported fault journal

def executeRun (read : FileReader) (arguments : RunArguments) : Outcome :=
  match loadTemplate read arguments.file with
  | .error fault => reported fault []
  | .ok file =>
      match runSettings read file arguments with
      | .error fault => reported fault []
      | .ok settings =>
          generating file settings (fun generated =>
            if arguments.quiet then { exit := 0 }
            else
              match arguments.output with
              | some path =>
                  { exit := 0, written := some (path, listing generated arguments.tree) }
              | none => { exit := 0, output := listing generated arguments.tree })

def instructionCount (generated : Generated) : Nat :=
  (generated.phases.flatMap (fun phase => phase.sequences.map List.length)).foldr (· + ·) 0

def executeCheck (read : FileReader) (path : String) : Outcome :=
  match loadTemplate read path with
  | .error fault => reported fault []
  | .ok file =>
      generating file file.ownSettings (fun generated =>
        { exit := 0
          errors := [s!"ok: {path} generates {instructionCount generated} instruction(s)"] })

def execute (read : FileReader) : Command → Outcome
  | .run arguments => executeRun read arguments
  | .check path => executeCheck read path
  | .help part => { exit := 0, output := part.guide }
  | .version => { exit := 0, output := versionLine }

/-- The outcome when the file to be written could not be. -/
def unwritable (path reason : String) (outcome : Outcome) : Outcome :=
  { outcome with
    exit := 1, written := none, errors := [s!"error: cannot write '{path}': {reason}"] }

def misused (fault : UsageFault) : Outcome :=
  { exit := 2, errors := ["error: " ++ fault.message, Part.guide .program] }

/-- The outcome of a command that writes, and the tree after it. -/
def deliver (tree : FileTree) (path content : String) (outcome : Outcome) : Outcome × FileTree :=
  match tree.target path with
  | .error fault => (unwritable path fault.message outcome, tree)
  | .ok (.file place) => (outcome, tree.put place (.file content))
  | .ok (.device .null) => (outcome, tree)
  | .ok (.device .full) => (unwritable path FileFault.noSpace.message outcome, tree)
  | .ok (.device .output) => ({ outcome with output := outcome.output ++ content }, tree)
  | .ok (.device .errors) => ({ outcome with errors := outcome.errors ++ [content] }, tree)

/-- Reading the files of a tree. -/
def FileTree.reader (tree : FileTree) : FileReader := fun path =>
  (tree.read path).mapError FileFault.message

/-- Run a command line in a tree of files. -/
def runIn (tree : FileTree) (words : List String) : Outcome × FileTree :=
  match parse words with
  | .error fault => (misused fault, tree)
  | .ok request =>
      let outcome := execute tree.reader request.command
      match outcome.written with
      | none => (outcome, tree)
      | some (path, content) => deliver tree path content outcome

end TestProgram.CommandLine
