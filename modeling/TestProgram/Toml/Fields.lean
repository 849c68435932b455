/-
# TestProgram.Toml.Fields -- values as records

A record is written as a table with some of its fields as keys, or as an array of
its fields in their order, where fields at the end may be missing.  `fields?` gives
the fields in order, those that were not written as `none`.  An array may be longer
than the record; where the record is one of several things that could stand in its
place, `exactFields?` refuses that.
-/
import TestProgram.Toml.Value
import TestProgram.MachineWord

namespace TestProgram.Toml

set_option autoImplicit false

namespace Value

def boolean? : Value → Option Bool
  | .boolean flag => some flag
  | _ => none

def integer? : Value → Option Int
  | .integer number => some number
  | _ => none

def text? : Value → Option String
  | .text content => some content
  | _ => none

def elements? : Value → Option (List Value)
  | .array _ elements => some elements
  | _ => none

def entries? : Value → Option (List (String × Value))
  | .table _ entries => some entries
  | _ => none

/-- A number from `0` up to `bound`, which is not reached. -/
def below? (bound : Nat) (value : Value) : Option Nat := do
  let number ← value.integer?
  if 0 ≤ number ∧ number < bound then some number.toNat else none

def short? : Value → Option Nat := below? MachineWord.short

def long? : Value → Option Nat := below? MachineWord.long

def list? {α : Type} (element? : Value → Option α) (value : Value) : Option (List α) := do
  (← value.elements?).mapM element?

def texts? : Value → Option (List String) := list? text?

def entryFields? (names : List String) (entries : List (String × Value)) :
    Option (List (Option Value)) :=
  if entries.all (fun entry => names.contains entry.1) then
    some (names.map (fun name => entries.lookup name))
  else none

def elementFields (names : List String) (elements : List Value) : List (Option Value) :=
  names.zipIdx.map (fun (_, index) => elements[index]?)

def fields? (names : List String) : Value → Option (List (Option Value))
  | .table _ entries => entryFields? names entries
  | .array _ elements => some (elementFields names elements)
  | _ => none

def exactFields? (names : List String) : Value → Option (List (Option Value))
  | .array _ elements =>
      if names.length < elements.length then none else some (elementFields names elements)
  | value => value.fields? names

end Value

/-- A field that may be missing, with the value it has then. -/
def withDefault {α : Type} (read : Value → Option α) (default : α) : Option Value → Option α
  | some value => read value
  | none => some default

/-- A field that may be missing. -/
def optional {α : Type} (read : Value → Option α) : Option Value → Option (Option α)
  | some value => (read value).map some
  | none => some none

/-- A field that must be there. -/
def required {α : Type} (read : Value → Option α) : Option Value → Option α
  | some value => read value
  | none => none

end TestProgram.Toml
