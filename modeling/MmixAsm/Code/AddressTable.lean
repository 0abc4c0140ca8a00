import MmixAsm.Layout.Statement

/-
  Address tables: where labelled data lives.

  A cursor runs over the statements.  Every statement moves
  it by one, and an allocation moves it further by the width
  of its size.  The address of a labelled allocation is where
  the cursor stands in front of it.

  Key definitions include:
    * `MmixAsm.AddressTable`
    * `MmixAsm.AddressTable.ofStatements`
    * `MmixAsm.AddressTable.apply`
-/

------------------------------------------------------------
-- Addresses
------------------------------------------------------------

namespace MmixAsm

/- Labels with addresses; the first entry of a label counts. -/
structure AddressTable where
  entries : List (String × Nat)
deriving DecidableEq

namespace AddressTable

/- How far a statement moves the cursor. -/
def advance :
    Statement → Nat
| .alloc line => 1 + line.keyword.width
| _ => 1

/- The label a statement gives an address to. -/
def dataLabel? :
    Statement → Option String
| .alloc line => line.label
| _ => none

/- The addresses of the labelled allocations in order. -/
def entriesFrom
    (cursor : Nat) :
    List Statement → List (String × Nat)
| [] => []
| statement :: rest =>
    match dataLabel? statement with
    | some label =>
        (label, cursor)
          :: entriesFrom (cursor + advance statement) rest
    | none => entriesFrom (cursor + advance statement) rest

/- The address table of a program. -/
def ofStatements (statements : List Statement) : AddressTable :=
  ⟨entriesFrom 0 statements⟩

/- The address of a label. -/
def address?
    (table : AddressTable)
    (label : String) : Option Nat :=
  table.entries.lookup label

/- Replace a text that is a data label by its address. -/
def resolve
    (table : AddressTable)
    (text : String) : String :=
  match table.address? text with
  | some address => toString address
  | none => text

/- Replace the data labels among a statement's parameters. -/
def apply
    (table : AddressTable)
    (statement : Statement) : Statement :=
  statement.mapParameters table.resolve

end AddressTable

end MmixAsm
