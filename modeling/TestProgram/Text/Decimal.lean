/-
# TestProgram.Text.Decimal -- how numbers are written

Counts and integers are written in decimal.  `hex` is lower case without padding,
`address` has the mark `0x` before it, and `signed` writes the sign of a number that
is not negative too.
-/
namespace TestProgram.Text

set_option autoImplicit false

def hex (n : Nat) : String :=
  String.ofList (Nat.toDigits 16 n)

def address (n : Nat) : String :=
  "0x" ++ hex n

def signed (n : Int) : String :=
  if n < 0 then toString n else "+" ++ toString n

def commas (parts : List String) : String :=
  ", ".intercalate parts

end TestProgram.Text
