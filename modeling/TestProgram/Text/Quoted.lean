/-
# TestProgram.Text.Quoted -- text between double quotes

`quoted` writes a text so that it stays on one line and can be told from its
surroundings: a double quote and a backslash get a backslash before them, the
usual control characters have a letter of their own, and a character that prints
nothing or joins the one before it (`hidden`) is written by its number.
-/
import TestProgram.Text.Decimal

namespace TestProgram.Text

set_option autoImplicit false

/-- First and last code point of the blocks that print nothing of their own:
controls, blanks other than the space, format characters, private use, and the
marks that attach to the character before them. -/
def hiddenBlocks : List (Nat × Nat) :=
  [(0x0, 0x1f), (0x7f, 0xa0), (0xad, 0xad), (0x300, 0x36f), (0x483, 0x489), (0x591, 0x5bd),
   (0x600, 0x605), (0x610, 0x61a), (0x61c, 0x61c), (0x64b, 0x65f), (0x6dd, 0x6dd),
   (0x70f, 0x70f), (0x1680, 0x1680), (0x180b, 0x180f), (0x1ab0, 0x1ace), (0x1dc0, 0x1dff),
   (0x2000, 0x200f), (0x2028, 0x202f), (0x205f, 0x206f), (0x20d0, 0x20f0), (0x3000, 0x3000),
   (0x302a, 0x302f), (0xe000, 0xf8ff), (0xfe00, 0xfe0f), (0xfe20, 0xfe2f), (0xfeff, 0xfeff),
   (0xfff0, 0xfffb), (0xfffe, 0xffff), (0xe0000, 0x10ffff)]

def hidden (c : Char) : Bool :=
  hiddenBlocks.any (fun block => block.1 ≤ c.toNat && c.toNat ≤ block.2)

def escape (c : Char) : String :=
  if c = '"' then "\\\""
  else if c = '\\' then "\\\\"
  else if c = '\n' then "\\n"
  else if c = '\r' then "\\r"
  else if c = '\t' then "\\t"
  else if c.toNat = 0 then "\\0"
  else if hidden c then "\\u\x7b" ++ hex c.toNat ++ "\x7d"
  else c.toString

def quoted (text : String) : String :=
  "\"" ++ String.join (text.toList.map escape) ++ "\""

end TestProgram.Text
