import Std.Data.HashMap
import Kix.Syntax.Tree

/-!
# Addresses of local variables

A local variable lives in a frame. Its **address**, seen from an occurrence of
its name, says how many frames to go out and which place the variable has
there. Occurrences without an address name global variables.
-/

namespace Kix

/-- Where an occurrence finds its variable. -/
structure Address where
  /-- The number of frames to go out; 0 is the innermost one. -/
  distance : Nat
  /-- The place among the variables of that frame, in the order of their
  declarations. -/
  slot : Nat
  deriving DecidableEq, Repr

/-- The same address seen from one frame further in. -/
def Address.outward (a : Address) : Address := { a with distance := a.distance + 1 }

/-- The addresses of occurrences. -/
abbrev AddressTable := Std.HashMap OccurrenceId Address

/-- Adding addresses, a later entry for an occurrence replacing an earlier
one. -/
def AddressTable.extend (table : AddressTable) (entries : List (OccurrenceId × Address)) :
    AddressTable :=
  table.insertMany entries

end Kix
