/-
# TestProgram.Toml.Value -- values of a TOML document

A value is a scalar, an array or a table.  Arrays and tables know the stretch of
bytes they were written in: from bracket to bracket, or, for a table with a header
of its own, from the header to the end of the last value directly below it.
-/
namespace TestProgram.Toml

set_option autoImplicit false

/-- The bytes from `start` up to `stop`. -/
structure Span where
  start : Nat
  stop : Nat
deriving DecidableEq, Repr, Inhabited

inductive Value
  | boolean (flag : Bool)
  | integer (number : Int)
  /-- A number with a fraction or an exponent; nothing asks for its value. -/
  | float
  | text (content : String)
  | array (span : Span) (elements : List Value)
  | table (span : Span) (entries : List (String × Value))

end TestProgram.Toml
