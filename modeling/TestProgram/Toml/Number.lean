/-
# TestProgram.Toml.Number -- bare values

A value without quotes or brackets is one word: a flag, an integer of 64 bits in one
of four bases, or a number with a fraction or an exponent.  A low line may stand
between two digits.
-/
import TestProgram.Toml.Text
import TestProgram.Toml.Value
import TestProgram.MachineWord

namespace TestProgram.Toml.Number

set_option autoImplicit false

/-- A character that a bare value can consist of. -/
def isWordChar (c : Char) : Bool :=
  c.isAlphanum || c == '_' || c == '+' || c == '-' || c == '.' || c == ':'

/-- The digits of a word in which a low line stands between digits only. -/
def digits? (isDigit : Char → Bool) : List Char → Option (List Char)
  | [] => none
  | [c] => if isDigit c then some [c] else none
  | c :: '_' :: rest =>
      if isDigit c then (digits? isDigit rest).map (c :: ·) else none
  | c :: rest => if isDigit c then (digits? isDigit rest).map (c :: ·) else none

def valueIn (base : Nat) (digits : List Char) : Nat :=
  digits.foldl (fun value c => value * base + (Reader.hexDigit? c).getD 0) 0

def isDigitBelow (base : Nat) (c : Char) : Bool :=
  match Reader.hexDigit? c with
  | some digit => decide (digit < base)
  | none => false

/-- The sign of a word, and the word without it. -/
def splitSign : List Char → Bool × List Char
  | '-' :: rest => (true, rest)
  | '+' :: rest => (false, rest)
  | word => (false, word)

/-- Decimal digits, without a zero in front of others. -/
def decimal? (word : List Char) : Option Nat :=
  match word with
  | '0' :: _ :: _ => none
  | _ => (digits? Char.isDigit word).map (valueIn 10)

def inWord (number : Int) : Option Int :=
  if MachineWord.isSigned number then some number else none

def based? (base : Nat) (word : List Char) : Option Int := do
  let digits ← digits? (isDigitBelow base) word
  inWord (valueIn base digits)

def integer? (word : List Char) : Option Int :=
  match word with
  | '0' :: 'x' :: rest => based? 16 rest
  | '0' :: 'o' :: rest => based? 8 rest
  | '0' :: 'b' :: rest => based? 2 rest
  | _ => do
      let (negative, rest) := splitSign word
      let number ← decimal? rest
      inWord (if negative then -(number : Int) else number)

/-! ## Fractions and exponents -/

def isExponentMark (c : Char) : Bool :=
  c == 'e' || c == 'E'

/-- A number written with a fraction or an exponent: `digits` times ten to the power of
`exponent`. -/
structure Fraction where
  negative : Bool
  digits : List Char
  exponent : Int

/-- The exponent behind its mark. -/
def exponent? (word : List Char) : Option Int := do
  let (negative, rest) := splitSign word
  let number ← (digits? Char.isDigit rest).map (valueIn 10)
  some (if negative then -(number : Int) else number)

/-- The digits after the point, and the exponent, which need not be written. -/
def afterPoint? (word : List Char) : Option (List Char × Int) := do
  let (digits, rest) := word.span (fun c => !isExponentMark c)
  let digits ← digits? Char.isDigit digits
  match rest with
  | [] => some (digits, 0)
  | _ :: exponent => some (digits, ← exponent? exponent)

def fraction? (word : List Char) : Option Fraction := do
  let (negative, unsigned) := splitSign word
  let (whole, rest) := unsigned.span (fun c => !(c == '.' || isExponentMark c))
  let _ ← decimal? whole
  let whole ← digits? Char.isDigit whole
  match rest with
  | '.' :: fraction => do
      let (digits, exponent) ← afterPoint? fraction
      some { negative, digits := whole ++ digits, exponent := exponent - digits.length }
  | _ :: exponent => some { negative, digits := whole, exponent := ← exponent? exponent }
  | [] => none

/-- The least number that rounds to no finite number of double precision. -/
def doubleBound : Nat := 1 <<< 1024 - 1 <<< 970

/-- A number with zeros behind its last digit. -/
def withZeros (number zeros : Nat) : Nat :=
  (List.replicate zeros 10).foldl (· * ·) number

/-- Whether a number is too large for double precision.  One with more than 309 digits
before the point is, and none with fewer, so that no power need be computed that the
digits do not call for. -/
def Fraction.isHuge (fraction : Fraction) : Bool :=
  let digits := fraction.digits.dropWhile (· == '0')
  let whole := (digits.length : Int) + fraction.exponent
  if digits.isEmpty || whole < 309 then false
  else if 309 < whole then true
  else if fraction.exponent < 0 then
    withZeros doubleBound fraction.exponent.natAbs ≤ valueIn 10 digits
  else doubleBound ≤ withZeros (valueIn 10 digits) fraction.exponent.natAbs

/-- A word for infinity or for no number. -/
def isSpecial (word : List Char) : Bool :=
  let unsigned := (splitSign word).2
  unsigned == ['i', 'n', 'f'] || unsigned == ['n', 'a', 'n']

/-- A number with a fraction or an exponent.  A positive one must fit double precision. -/
def isFloat (word : List Char) : Bool :=
  isSpecial word ||
    match fraction? word with
    | some fraction => fraction.negative || !fraction.isHuge
    | none => false

def value? (word : List Char) : Option Value :=
  if word == ['t', 'r', 'u', 'e'] then some (.boolean true)
  else if word == ['f', 'a', 'l', 's', 'e'] then some (.boolean false)
  else
    match integer? word with
    | some number => some (.integer number)
    | none => if isFloat word then some .float else none

end TestProgram.Toml.Number
