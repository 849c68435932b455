/-
# TestProgram.Main -- the program

Reads the files that a command line names, runs the command, and prints and writes
what it yields.
-/
import TestProgram.CommandLine.Execute

namespace TestProgram.CommandLine

set_option autoImplicit false

/-- The number that the operating system gave a fault. -/
def faultNumber? : IO.Error → Option UInt32
  | .noFileOrDirectory _ number _ | .inappropriateType _ number _
  | .invalidArgument _ number _ | .resourceExhausted _ number _ => some number
  | .otherError number _ => some number
  | _ => none

/-- Why a file could not be read or written. -/
def reasonOf (fault : IO.Error) : String :=
  match (faultNumber? fault).bind (fun number => FileFault.ofNumber? number.toNat) with
  | some known => known.message
  | none => toString fault

/-- The content of a file, or the reason why it cannot be read. -/
def readFile (path : String) : IO (Except String String) := do
  try
    pure (.ok (← IO.FS.readFile path))
  catch fault => pure (.error (reasonOf fault))

/-- The files that a command reads, by their paths. -/
def filesOf : Command → List String
  | .run arguments => arguments.file :: arguments.config.toList
  | .check path => [path]
  | _ => []

/-- The lowest level of remarks that are shown. -/
def shownLevel (verbosity : Nat) : Level :=
  match verbosity with
  | 0 => .warning
  | 1 => .info
  | _ => .debug

def conclude (outcome : Outcome) : IO UInt32 := do
  IO.print outcome.output
  outcome.errors.forM (fun text => IO.eprintln text)
  pure (UInt32.ofNat outcome.exit)

def perform (request : Request) : IO UInt32 := do
  let sources ← (filesOf request.command).mapM (fun path => do pure (path, ← readFile path))
  let read : FileReader := fun path =>
    (sources.lookup path).getD (.error FileFault.missing.message)
  let outcome := execute read request.command
  (outcome.journal.lines (shownLevel request.verbosity)).forM (fun text => IO.eprintln text)
  match outcome.written with
  | none => conclude outcome
  | some (path, content) =>
      try
        IO.FS.writeFile path content
        conclude outcome
      catch fault => conclude (unwritable path (reasonOf fault) outcome)

end TestProgram.CommandLine

open TestProgram.CommandLine in
def main (words : List String) : IO UInt32 :=
  match parse words with
  | .ok request => perform request
  | .error fault => conclude (misused fault)
