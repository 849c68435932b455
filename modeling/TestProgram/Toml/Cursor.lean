/-
# TestProgram.Toml.Cursor -- reading from the front of a text

A cursor is what is left of a text, how many bytes lie before it and how many the text
has.  A `Reader` takes something from the front or fails, and a reader that fails takes
nothing.
-/
namespace TestProgram.Toml

set_option autoImplicit false

structure Cursor where
  rest : List Char
  offset : Nat := 0
  size : Nat

abbrev Reader (α : Type) := StateT Cursor Option α

namespace Reader

def peek : Reader (Option Char) := do pure (← get).rest.head?

def offset : Reader Nat := do pure (← get).offset

def next : Reader Char := fun cursor =>
  match cursor.rest with
  | [] => none
  | c :: rest => some (c, { cursor with rest, offset := cursor.offset + c.utf8Size })

/-- The bytes that are left: no more characters can be taken. -/
def bound : Reader Nat := do
  let cursor ← get
  pure (cursor.size - cursor.offset)

def satisfying (accepted : Char → Bool) : Reader Char := do
  let c ← next
  if accepted c then pure c else failure

def expect (c : Char) : Reader Unit := do
  let _ ← satisfying (· == c)

/-- The longest run of accepted characters. -/
def takeWhile (accepted : Char → Bool) : Reader (List Char) := fun cursor =>
  let (taken, rest) := cursor.rest.span accepted
  let offset := taken.foldl (fun offset c => offset + c.utf8Size) cursor.offset
  some (taken, { cursor with rest, offset })

/-- Exactly so many characters, all of them accepted. -/
def takeExactly (accepted : Char → Bool) : Nat → Reader (List Char)
  | 0 => pure []
  | n + 1 => do
      let c ← satisfying accepted
      let rest ← takeExactly accepted n
      pure (c :: rest)

def skip (accepted : Char → Bool) : Reader Unit := do
  let _ ← takeWhile accepted

/-- Whether these characters come next. -/
def isNext (expected : List Char) : Reader Bool := do
  pure (expected.isPrefixOf (← get).rest)

/-- Take these characters if they come next. -/
def tryTake (expected : List Char) : Reader Bool := do
  if ← isNext expected then
    let _ ← takeExactly (fun _ => true) expected.length
    pure true
  else pure false

end Reader

/-! ## Blanks, line ends and comments -/

def isBlank (c : Char) : Bool :=
  c == ' ' || c == '\t'

/-- A character that may stand in a comment. -/
def isCommentChar (c : Char) : Bool :=
  c == '\t' || (0x20 ≤ c.toNat && c.toNat != 0x7f)

namespace Reader

def blanks : Reader Unit := skip isBlank

def newline : Reader Unit := do
  if ← tryTake ['\r', '\n'] then pure () else expect '\n'

def comment : Reader Unit := do
  expect '#'
  skip isCommentChar

def atEnd : Reader Bool := do pure (← get).rest.isEmpty

def lineEnd : Reader Unit := do
  if ← atEnd then pure () else newline

/-- The end of a line behind a statement: blanks, perhaps a comment. -/
def trailing : Reader Unit := do
  blanks
  if (← peek) == some '#' then comment
  lineEnd

/-- Blanks, comments and line ends in any number. -/
def gaps : Nat → Reader Unit
  | 0 => pure ()
  | fuel + 1 => do
      blanks
      match ← peek with
      | some '#' => do
          comment
          newline
          gaps fuel
      | some '\n' => do
          newline
          gaps fuel
      | some '\r' => do
          newline
          gaps fuel
      | _ => pure ()

def gap : Reader Unit := do gaps (← bound)

end Reader
end TestProgram.Toml
