/-
# TestProgram.CommandLine.FileTree -- the files that a command can reach

A file tree says what stands at each place, a place being the names that lead there
from the root, and which directory is the working one.  A path is followed part by
part: an empty part and a single dot stay where they are, two dots go up, and any
other part is a name in the directory reached so far.  Only a directory can be gone
through.  `read` and `target` fail as the operating system does: which fault it is
depends on the first part that cannot be followed.
-/
import TestProgram.KeyMap

namespace TestProgram.CommandLine

set_option autoImplicit false

inductive FileFault
  | missing | notDirectory | isDirectory | noSpace | nameTooLong | nulInName
deriving DecidableEq, Repr

namespace FileFault

/-- The number of a fault, if the operating system has one for it. -/
def number? : FileFault → Option Nat
  | .missing => some 2
  | .notDirectory => some 20
  | .isDirectory => some 21
  | .noSpace => some 28
  | .nameTooLong => some 36
  | .nulInName => none

def reason : FileFault → String
  | .missing => "No such file or directory"
  | .notDirectory => "Not a directory"
  | .isDirectory => "Is a directory"
  | .noSpace => "No space left on device"
  | .nameTooLong => "File name too long"
  | .nulInName => "file name contained an unexpected NUL byte"

def message (fault : FileFault) : String :=
  match fault.number? with
  | some number => s!"{fault.reason} (os error {number})"
  | none => fault.reason

def all : List FileFault :=
  [.missing, .notDirectory, .isDirectory, .noSpace, .nameTooLong, .nulInName]

def ofNumber? (number : Nat) : Option FileFault :=
  all.find? (fun fault => fault.number? == some number)

end FileFault

/-- The names that lead from the root to something. -/
abbrev Place := List String

/-- A file that keeps nothing: what is written goes nowhere, has no space, or is shown. -/
inductive Device
  | null | full | output | errors
deriving DecidableEq, Repr

inductive FileEntry
  | directory
  | file (content : String)
  | device (device : Device)
deriving DecidableEq, Repr

structure FileTree where
  entries : List (Place × FileEntry) := []
  home : Place := []

/-- What can be written to: a place for a file, or a device. -/
inductive FileTarget
  | file (place : Place)
  | device (device : Device)
deriving DecidableEq, Repr

namespace FileTree

def entry? (tree : FileTree) (place : Place) : Option FileEntry :=
  if place.isEmpty then some .directory
  else (tree.entries.find? (fun entry => entry.1 == place)).map Prod.snd

def put (tree : FileTree) (place : Place) (entry : FileEntry) : FileTree :=
  { tree with
    entries := tree.entries.filter (fun other => other.1 != place) ++ [(place, entry)] }

/-! ## A tree with some files -/

/-- What stands in every tree. -/
def common : List (Place × FileEntry) :=
  ["bin", "boot", "dev", "etc", "home", "lib", "media", "mnt", "opt", "proc", "root", "run",
    "sbin", "srv", "sys", "tmp", "usr", "var"].map (fun name => ([name], .directory))
  ++ [(["dev", "null"], .device .null), (["dev", "full"], .device .full),
      (["dev", "stdout"], .device .output), (["dev", "stderr"], .device .errors)]

/-- The tree with a file, and with the directories that lead to it. -/
def addFile (tree : FileTree) (place : Place) (content : String) : FileTree :=
  let above := (List.range place.length).map (fun count => place.take count)
  (above.foldl (fun tree place => tree.put place .directory) tree).put place (.file content)

/-- A tree whose working directory holds these files, each under its path. -/
def ofFiles (files : KeyMap String) : FileTree :=
  let home := ["tmp", "work"]
  let tree : FileTree := { entries := common ++ [(home, .directory)], home }
  files.foldl (fun tree file => tree.addFile (home ++ file.1.splitOn "/") file.2) tree

/-- The files in and below the working directory, each under its path. -/
def files (tree : FileTree) : KeyMap String :=
  KeyMap.ofList (tree.entries.filterMap (fun (place, entry) =>
    match entry with
    | .file content =>
        if tree.home.isPrefixOf place then
          some ("/".intercalate (place.drop tree.home.length), content)
        else none
    | _ => none))

/-! ## Paths -/

/-- The most bytes of a name. -/
def maxName : Nat := 255

/-- The most bytes of a path. -/
def maxPath : Nat := 4095

def start (tree : FileTree) (path : String) : Place :=
  if path.startsWith "/" then [] else tree.home

/-- Follow parts from a place.  Nothing need stand at the place where they end. -/
def follow (tree : FileTree) : Place → List String → Except FileFault Place
  | place, [] => .ok place
  | place, part :: rest =>
      match tree.entry? place with
      | none => .error .missing
      | some .directory =>
          if part.isEmpty || part == "." then follow tree place rest
          else if part == ".." then follow tree place.dropLast rest
          else if maxName < part.utf8ByteSize then .error .nameTooLong
          else follow tree (place ++ [part]) rest
      | some _ => .error .notDirectory

/-- A text that can be a path. -/
def checked (path : String) : Except FileFault Unit :=
  if path.contains (Char.ofNat 0) then .error .nulInName
  else if path.isEmpty then .error .missing
  else if maxPath < path.utf8ByteSize then .error .nameTooLong
  else .ok ()

/-- The content of the file at a path; the devices have none. -/
def read (tree : FileTree) (path : String) : Except FileFault String := do
  checked path
  let place ← tree.follow (tree.start path) (path.splitOn "/")
  match tree.entry? place with
  | none => .error .missing
  | some .directory => .error .isDirectory
  | some (.file content) => .ok content
  | some (.device _) => .ok ""

/-- Where a file that is written under a path goes.  A path with a slash at its end, or
with dots, is one of a directory, even if there is none. -/
def target (tree : FileTree) (path : String) : Except FileFault FileTarget := do
  checked path
  let parts := (path.splitOn "/").filter (fun part => !part.isEmpty)
  let place ← tree.follow (tree.start path) (parts.dropLast ++ ["."])
  match parts.getLast? with
  | none => .error .isDirectory
  | some name =>
      if path.endsWith "/" || name == "." || name == ".." then .error .isDirectory
      else if maxName < name.utf8ByteSize then .error .nameTooLong
      else
        match tree.entry? (place ++ [name]) with
        | some .directory => .error .isDirectory
        | some (.device device) => .ok (.device device)
        | _ => .ok (.file (place ++ [name]))

end FileTree
end TestProgram.CommandLine
