/-
# TestProgram.AddressReference -- references to addresses and table entries

A reference stands at a level of indirection and may be narrowed to a stretch of
bits.  Narrowing a narrowed reference intersects the two stretches, so it only
restricts further.
-/
import TestProgram.Fault

namespace TestProgram

set_option autoImplicit false

inductive ReferenceKind
  | address
  /-- An entry of a buffer, such as a page table. -/
  | entry
deriving DecidableEq, Repr

def ReferenceKind.name : ReferenceKind → String
  | .address => "address"
  | .entry => "entry"

/-- The bits from `low` up to `high`, which is not among them. -/
structure BitRange where
  low : Nat
  high : Nat
deriving DecidableEq, Repr

structure AddressReference where
  kind : ReferenceKind
  level : Nat
  bits : Option BitRange := none
deriving DecidableEq, Repr

namespace AddressReference

def meet (low high : Nat) : Option BitRange → BitRange
  | none => ⟨low, high⟩
  | some held => ⟨max low held.low, min high held.high⟩

def narrow (reference : AddressReference) (low high : Nat) : Except Fault AddressReference :=
  let narrowed := meet low high reference.bits
  if high ≤ low then .error (Fault.of (.emptyBits low high))
  else if narrowed.high ≤ narrowed.low then .error (Fault.of (.disjointBits low high))
  else .ok { reference with bits := some narrowed }

def narrowAll (reference : AddressReference) (ranges : List (Nat × Nat)) :
    Except Fault AddressReference :=
  ranges.foldlM (fun held range => held.narrow range.1 range.2) reference

def render (reference : AddressReference) : String :=
  reference.kind.name ++ "(" ++ toString reference.level ++ ")"
    ++ (match reference.bits with
        | some bits => s!"[{bits.low}..{bits.high}]"
        | none => "")

end AddressReference

/-- The slot of a numeric label. -/
def NumericSlot.ofInt (index : Int) : Except Fault NumericSlot :=
  if h : 0 ≤ index ∧ index ≤ 9 then .ok ⟨index.toNat, by omega⟩
  else .error (Fault.of (.slotOutside index))

end TestProgram
