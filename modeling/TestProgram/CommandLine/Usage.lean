/-
# TestProgram.CommandLine.Usage -- what the program says of its own use

Each part of a command line has a text of help: what it does, how it is written, the
words it takes and the switches that can stand in it, in one column.
-/
import TestProgram.CommandLine.Arguments

namespace TestProgram.CommandLine

set_option autoImplicit false

namespace Part

def summary : Part → String
  | .program => "Test sequence template generator"
  | .run => "Generate test sequences from a template file"
  | .check => "Parse and generate a template without printing the result"
  | .help => "Print this message or the help of the given subcommand(s)"

def form : Part → String
  | .program => "tsl [OPTIONS] <COMMAND>"
  | .run => "tsl run [OPTIONS] <FILE>"
  | .check => "tsl check [OPTIONS] <FILE>"
  | .help => "tsl help [COMMAND]..."

end Part

namespace Switch

def summary : Switch → String
  | .noColor => "Disable colored error output"
  | .verbose => "Log generation progress (repeat for more detail)"
  | .help => "Print help"
  | .version => "Print version"
  | .seed => "Random seed; overrides the template and --config"
  | .config => "Settings file layered over the template's [settings]"
  | .tree => "Print the composition tree of every phase"
  | .output => "Write the listing to this file instead of stdout"
  | .quiet => "Suppress the listing (just check for errors)"

/-- What stands behind a long option. -/
def placeholder : Switch → String
  | .verbose => "..."
  | .seed => " <SEED>"
  | .config => " <CONFIG>"
  | .output => " <OUTPUT>"
  | _ => ""

def form (option : Switch) : String :=
  (match option.short? with
    | some letter => "-" ++ letter.toString ++ ", "
    | none => "    ")
  ++ "--" ++ option.long ++ option.placeholder

end Switch

/-- A heading over rows of two columns. -/
def titled (heading : String) (rows : List (String × String)) : String :=
  let width := (rows.map (fun row => row.1.length)).foldl max 0
  let row (first second : String) : String :=
    "  " ++ first ++ String.ofList (List.replicate (width - first.length + 2) ' ') ++ second
      ++ "\n"
  "\n" ++ heading ++ ":\n" ++ String.join (rows.map (fun (first, second) => row first second))

def commandRows : List (String × String) :=
  [("run", Part.summary .run), ("check", Part.summary .check), ("help", Part.summary .help)]

def Part.words : Part → String
  | .program => titled "Commands" commandRows
  | .run | .check => titled "Arguments" [("<FILE>", "Template file (TOML)")]
  | .help => titled "Arguments" [("[COMMAND]...", "Print help for the subcommand(s)")]

def Part.guide (part : Part) : String :=
  let options := part.switches.map (fun option => (option.form, option.summary))
  part.summary ++ "\n\nUsage: " ++ part.form ++ "\n" ++ part.words
    ++ (if options.isEmpty then "" else titled "Options" options)

def versionLine : String := "tsl 0.1.0\n"

end TestProgram.CommandLine
