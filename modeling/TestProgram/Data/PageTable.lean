/-
# TestProgram.Data.PageTable -- page table entries as data

An entry is described by its attributes, which the preparator writes, or maps a
memory object, which the adaptor writes.  A table without the one that an entry
needs cannot write it.
-/
import TestProgram.Data.Desk

namespace TestProgram

set_option autoImplicit false

/-- A mapping from virtual to physical memory. -/
structure MemoryObject where
  virtual : Nat
  physical : Nat
  size : Nat
  attributes : Attributes := []

inductive PageTableEntry
  | attributes (attributes : Attributes)
  | memory (object : MemoryObject)

structure PageTable where
  preparator : Option (Attributes → DataAction Unit) := none
  adaptor : Option (MemoryObject → DataAction Unit) := none

namespace PageTable

def emit (table : PageTable) : PageTableEntry → DataAction Unit
  | .attributes attributes =>
      match table.preparator with
      | some preparator => preparator attributes
      | none => throw (Fault.of .noPreparator)
  | .memory object =>
      match table.adaptor with
      | some adaptor => adaptor object
      | none => throw (Fault.of .noAdaptor)

def render (table : PageTable) : String :=
  "PageTable \x7b preparator: " ++ toString table.preparator.isSome
    ++ ", adaptor: " ++ toString table.adaptor.isSome ++ " \x7d"

/-! ## Tables that write through a definition -/

/-- A word of 64 bits read as a signed one. -/
def signedWord (word : Nat) : Scalar :=
  .integer (MachineWord.signed word)

/-- A table that writes entries through definitions of these names: attributes as a
comment and their number, memory objects as a comment and their three numbers. -/
def through (preparator adaptor : Option String) : PageTable where
  preparator := preparator.map (fun id attributes => do
    DataDesk.comment attributes.render
    DataDesk.emit id [.value (.integer attributes.length)])
  adaptor := adaptor.map (fun id object => do
    DataDesk.comment object.attributes.render
    DataDesk.emit id ([object.virtual, object.physical, object.size].map
      (fun word => .value (signedWord word))))

end PageTable
end TestProgram
