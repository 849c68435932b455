/-
# TestProgram.Toml.Text -- quoted texts

There are four ways to quote a text: on one line or on several, with escapes
(double quotes) or without (single quotes).  In a text of several lines a line end at
its very start is left out, a line end counts as a line feed, and a backslash at the
end of a line takes away the line end and the blanks after it.
-/
import TestProgram.Toml.Cursor

namespace TestProgram.Toml.Reader

set_option autoImplicit false

def doubleQuote : Char := Char.ofNat 0x22

def singleQuote : Char := Char.ofNat 0x27

def backslash : Char := Char.ofNat 0x5c

/-- A character that stands for itself between quotes of this kind. -/
def isPlain (quote c : Char) : Bool :=
  isCommentChar c && c != quote && !(quote == doubleQuote && c == backslash)

/-! ## Escapes -/

def hexDigit? (c : Char) : Option Nat :=
  if '0' ≤ c && c ≤ '9' then some (c.toNat - '0'.toNat)
  else if 'a' ≤ c && c ≤ 'f' then some (c.toNat - 'a'.toNat + 10)
  else if 'A' ≤ c && c ≤ 'F' then some (c.toNat - 'A'.toNat + 10)
  else none

def isHexDigit (c : Char) : Bool :=
  (hexDigit? c).isSome

def hexValue (digits : List Char) : Nat :=
  digits.foldl (fun value c => value * 16 + (hexDigit? c).getD 0) 0

/-- The character with the number given by so many hexadecimal digits. -/
def codePoint (width : Nat) : Reader Char := do
  let number := hexValue (← takeExactly isHexDigit width)
  if number.isValidChar then pure (Char.ofNat number) else failure

/-- What the characters after a backslash stand for. -/
def escaped : Reader Char := do
  match ← next with
  | 'b' => pure (Char.ofNat 0x8)
  | 't' => pure '\t'
  | 'n' => pure '\n'
  | 'f' => pure (Char.ofNat 0xc)
  | 'r' => pure '\r'
  | 'u' => codePoint 4
  | 'U' => codePoint 8
  | c => if c == doubleQuote || c == backslash then pure c else failure

/-! ## One line -/

def lineBody (quote : Char) : Nat → Reader (List Char)
  | 0 => failure
  | fuel + 1 => do
      let c ← next
      if c == quote then pure []
      else if c == backslash && quote == doubleQuote then do
        let first ← escaped
        let rest ← lineBody quote fuel
        pure (first :: rest)
      else if isPlain quote c then do
        let rest ← lineBody quote fuel
        pure (c :: rest)
      else failure

/-- A text on one line, from its first quote. -/
def lineText (quote : Char) : Reader String := do
  expect quote
  pure (String.ofList (← lineBody quote ((← bound) + 1)))

/-! ## Several lines -/

/-- Blanks and line ends in any number. -/
def blankLines : Nat → Reader Unit
  | 0 => pure ()
  | fuel + 1 => do
      skip (fun c => isBlank c || c == '\n')
      if ← tryTake ['\r', '\n'] then blankLines fuel

/-- What a backslash at the end of a line takes away. -/
def joint : Reader Unit := do
  blanks
  newline
  blankLines ((← bound) + 1)

/-- Whether a backslash just taken stands at the end of its line. -/
def atJoint : Reader Bool := do
  let ahead := (← get).rest.dropWhile isBlank
  pure (['\n'].isPrefixOf ahead || ['\r', '\n'].isPrefixOf ahead)

/-- The body of a text of several lines.  Up to two quotes in a row belong to the text,
and so do up to two in front of the three that end it. -/
def linesBody (quote : Char) : Nat → Reader (List Char)
  | 0 => failure
  | fuel + 1 => do
      match ← peek with
      | none => failure
      | some c =>
          if c == quote then do
            let quotes ← takeWhile (· == quote)
            if quotes.length < 3 then do
              let rest ← linesBody quote fuel
              pure (quotes ++ rest)
            else if quotes.length ≤ 5 then pure (quotes.drop 3)
            else failure
          else if c == backslash && quote == doubleQuote then do
            expect c
            if ← atJoint then do
              joint
              linesBody quote fuel
            else do
              let first ← escaped
              let rest ← linesBody quote fuel
              pure (first :: rest)
          else if c == '\n' || c == '\r' then do
            newline
            let rest ← linesBody quote fuel
            pure ('\n' :: rest)
          else if isPlain quote c then do
            expect c
            let rest ← linesBody quote fuel
            pure (c :: rest)
          else failure

/-- A text of several lines, from its first quote. -/
def linesText (quote : Char) : Reader String := do
  let _ ← takeExactly (· == quote) 3
  if (← peek) == some '\n' || (← isNext ['\r', '\n']) then newline
  pure (String.ofList (← linesBody quote ((← bound) + 1)))

/-- A text in quotes of either kind, on one line or several. -/
def text (quote : Char) : Reader String := do
  if ← isNext [quote, quote, quote] then linesText quote else lineText quote

end TestProgram.Toml.Reader
