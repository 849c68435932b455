/-
# TestProgram.CommandLine.Arguments -- what the words of a command line ask for

A command line names a command, `run` or `check`, and a template file; a line that
starts with a file means `run`.  Long options take a value after `=` or as the next
word, short ones also right behind their letter, and short options without a value
can share one dash.  After `--` every word is a plain one.  An option stands at most
once, but for `-v`, which counts.  The words are read from the first to the last, and
the first one that is wrong, or asks for help or the version, decides.
-/
import TestProgram.MachineWord

namespace TestProgram.CommandLine

set_option autoImplicit false

structure RunArguments where
  file : String
  seed : Option Nat := none
  config : Option String := none
  tree : Bool := false
  output : Option String := none
  quiet : Bool := false
deriving DecidableEq, Repr

/-- A part of a command line: the words before the command, or those of one command.
Help is about one part. -/
inductive Part
  | program | run | check | help
deriving DecidableEq, Repr

inductive Command
  | run (arguments : RunArguments)
  | check (file : String)
  | help (part : Part)
  | version
deriving DecidableEq, Repr

/-- A command and how much of its work it remarks on. -/
structure Request where
  command : Command
  verbosity : Nat := 0
deriving DecidableEq, Repr

/-- Why a command line asks for nothing. -/
inductive UsageFault
  | unknownOption (word : String)
  | repeatedOption (word : String)
  | missingValue (word : String)
  | unwantedValue (word : String)
  | badValue (word : String)
  | unexpectedWord (word : String)
  | missingFile
  | missingCommand
deriving DecidableEq, Repr

def UsageFault.message : UsageFault → String
  | .unknownOption word => s!"unknown option '{word}'"
  | .repeatedOption word => s!"option '{word}' cannot be used again"
  | .missingValue word => s!"option '{word}' needs a value"
  | .unwantedValue word => s!"option '{word}' takes no value"
  | .badValue word => s!"bad value '{word}'"
  | .unexpectedWord word => s!"unexpected word '{word}'"
  | .missingFile => "a template file is needed"
  | .missingCommand => "a command is needed"

/-! ## Options -/

inductive Switch
  | noColor | verbose | help | version | seed | config | tree | output | quiet
deriving DecidableEq, Repr

namespace Switch

def long : Switch → String
  | .noColor => "no-color"
  | .verbose => "verbose"
  | .help => "help"
  | .version => "version"
  | .seed => "seed"
  | .config => "config"
  | .tree => "tree"
  | .output => "output"
  | .quiet => "quiet"

def short? : Switch → Option Char
  | .verbose => some 'v'
  | .help => some 'h'
  | .version => some 'V'
  | .seed => some 's'
  | .config => some 'c'
  | .output => some 'o'
  | .quiet => some 'q'
  | _ => none

def takesValue : Switch → Bool
  | .seed | .config | .output => true
  | _ => false

end Switch

/-- The switches that can stand in a part. -/
def Part.switches : Part → List Switch
  | .program => [.noColor, .verbose, .help, .version]
  | .run => [.noColor, .seed, .config, .verbose, .tree, .output, .quiet, .help]
  | .check => [.noColor, .verbose, .help]
  | .help => []

def Part.switch? (part : Part) (accepted : Switch → Bool) : Option Switch :=
  part.switches.find? accepted

/-- A number of 64 bits, perhaps with a plus sign. -/
def seed? (word : String) : Option Nat :=
  let digits := match word.toList with
    | '+' :: digits => digits
    | digits => digits
  if digits.isEmpty || !digits.all Char.isDigit then none
  else
    let number := digits.foldl (fun value c => value * 10 + (c.toNat - '0'.toNat)) 0
    if number < MachineWord.long then some number else none

/-- Whether a text can be the value of an option. -/
def Switch.admits : Switch → String → Bool
  | .seed, value => (seed? value).isSome
  | .config, value | .output, value => !value.isEmpty
  | _, _ => true

/-- Why the words of a command line are not read to their end. -/
inductive Stop
  | fault (fault : UsageFault)
  | help (part : Part)
  | version

/-- What has been read of a command line, or of one part of it. -/
structure Gathered where
  switches : List (Switch × String) := []
  file : Option String := none

namespace Gathered

def value? (gathered : Gathered) (option : Switch) : Option String :=
  gathered.switches.lookup option

def has (gathered : Gathered) (option : Switch) : Bool :=
  (gathered.value? option).isSome

def add (gathered : Gathered) (part : Part) (option : Switch) (value written : String) :
    Except Stop Gathered :=
  if option == .help then .error (.help part)
  else if option == .version then .error .version
  else if !option.admits value then .error (.fault (.badValue value))
  else if gathered.has option && option != .verbose then
    .error (.fault (.repeatedOption written))
  else .ok { gathered with switches := gathered.switches ++ [(option, value)] }

/-- A plain word is the one file of a command. -/
def addFile (gathered : Gathered) (word : String) : Except Stop Gathered :=
  if gathered.file.isSome then .error (.fault (.unexpectedWord word))
  else if word.isEmpty then .error (.fault (.badValue word))
  else .ok { gathered with file := some word }

def addFiles (gathered : Gathered) (words : List String) : Except Stop Gathered :=
  words.foldlM addFile gathered

def count (gathered : Gathered) (option : Switch) : Nat :=
  (gathered.switches.filter (fun entry => entry.1 == option)).length

end Gathered

/-! ## Words -/

/-- A word of a command line by its dashes. -/
inductive Word
  | plain (word : String)
  | separator
  | long (name : String) (value : Option String)
  | short (letters : List Char)

def Word.of (word : String) : Word :=
  match word.toList with
  | ['-', '-'] => .separator
  | '-' :: '-' :: rest =>
      let name := rest.takeWhile (· != '=')
      match rest.dropWhile (· != '=') with
      | [] => .long (String.ofList name) none
      | _ :: value => .long (String.ofList name) (some (String.ofList value))
  | ['-'] => .plain word
  | '-' :: letters => .short letters
  | _ => .plain word

/-- A word that can be the value of the option before it. -/
def isValue (word : String) : Bool :=
  match Word.of word with
  | .plain _ => true
  | _ => false

/-- The value right behind the letter of an option, without the sign before it. -/
def attachedValue : List Char → Option String
  | [] => none
  | '=' :: value => some (String.ofList value)
  | value => some (String.ofList value)

/-- The letters behind one dash.  The first option that takes a value takes the letters
behind it; if there are none, that option is still without one. -/
def gatherLetters (part : Part) (written : String) :
    Gathered → List Char → Except Stop (Gathered × Option Switch)
  | gathered, [] => .ok (gathered, none)
  | gathered, letter :: rest =>
      match part.switch? (fun option => option.short? == some letter) with
      | none => .error (.fault (.unknownOption written))
      | some option =>
          if option.takesValue then
            match attachedValue rest with
            | some value => do .ok (← gathered.add part option value written, none)
            | none => .ok (gathered, some option)
          else do
            let gathered ← gathered.add part option "" written
            gatherLetters part written gathered rest

/-- Put the words into options and files.  Before the command the first plain word ends
that; it and those after it are left over. -/
def gather (part : Part) :
    Gathered → List String → Except Stop (Gathered × List String)
  | gathered, [] => .ok (gathered, [])
  | gathered, written :: rest =>
      match Word.of written with
      | .plain word =>
          if part = .program then .ok (gathered, word :: rest)
          else do gather part (← gathered.addFile word) rest
      | .separator =>
          if part = .program then
            match rest with
            | [] => .ok (gathered, [])
            | word :: _ => .error (.fault (.unexpectedWord word))
          else do .ok (← gathered.addFiles rest, [])
      | .long name value =>
          match part.switch? (fun option => option.long == name), value with
          | none, _ => .error (.fault (.unknownOption written))
          | some option, some value =>
              if option.takesValue then do
                gather part (← gathered.add part option value written) rest
              else .error (.fault (.unwantedValue written))
          | some option, none =>
              if option.takesValue then
                match rest with
                | value :: rest =>
                    if isValue value then do
                      gather part (← gathered.add part option value written) rest
                    else .error (.fault (.missingValue written))
                | [] => .error (.fault (.missingValue written))
              else do gather part (← gathered.add part option "" written) rest
      | .short letters => do
          match ← gatherLetters part written gathered letters with
          | (gathered, none) => gather part gathered rest
          | (gathered, some option) =>
              match rest with
              | value :: rest =>
                  if isValue value then do
                    gather part (← gathered.add part option value written) rest
                  else .error (.fault (.missingValue written))
              | [] => .error (.fault (.missingValue written))

/-! ## Commands -/

/-- The file of a command. -/
def theFile (gathered : Gathered) : Except Stop String :=
  match gathered.file with
  | none => .error (.fault .missingFile)
  | some file => .ok file

def runCommand (gathered : Gathered) : Except Stop Command := do
  let file ← theFile gathered
  .ok (.run
    { file
      seed := (gathered.value? .seed).bind seed?
      config := gathered.value? .config
      tree := gathered.has .tree
      output := gathered.value? .output
      quiet := gathered.has .quiet })

/-- The words with the command written out: a line whose first plain word is not a command
means `run`. -/
def withCommand (words : List String) : List String :=
  let before := words.takeWhile (fun word => word.startsWith "-")
  match words.drop before.length with
  | [] => words
  | first :: rest =>
      if ["run", "check", "help"].contains first then words
      else before ++ "run" :: first :: rest

/-- The part that a word after `help` names. -/
def partNamed? : String → Option Part
  | "run" => some .run
  | "check" => some .check
  | "help" => some .help
  | _ => none

/-- The command that follows the common options. -/
def command (name : String) (words : List String) : Except Stop (Gathered × Command) :=
  match name with
  | "run" => do
      let (gathered, _) ← gather .run {} words
      .ok (gathered, ← runCommand gathered)
  | "check" => do
      let (gathered, _) ← gather .check {} words
      .ok (gathered, .check (← theFile gathered))
  | "help" =>
      match words with
      | [] => .error (.help .program)
      | [word] =>
          match partNamed? word with
          | some part => .error (.help part)
          | none => .error (.fault (.unexpectedWord word))
      | word :: _ => .error (.fault (.unexpectedWord word))
  | _ => .error (.fault (.unexpectedWord name))

/-- What the words ask for, read from the first to the last. -/
def request (words : List String) : Except Stop Request := do
  match ← gather .program {} (withCommand words) with
  | (_, []) => .error (.fault .missingCommand)
  | (before, name :: rest) => do
      let (after, command) ← command name rest
      .ok { command, verbosity := before.count .verbose + after.count .verbose }

/-- What a command line asks for.  A word that asks for help or for the version does so
whatever comes after it. -/
def parse (words : List String) : Except UsageFault Request :=
  match request words with
  | .ok request => .ok request
  | .error (.help part) => .ok { command := .help part }
  | .error .version => .ok { command := .version }
  | .error (.fault fault) => .error fault

end TestProgram.CommandLine
