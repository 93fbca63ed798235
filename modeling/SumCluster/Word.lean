/-!
How many numbers there are in two, four and eight bytes. Eight bytes are the machine word, and a sum
that does not fit one is no sum.
-/

namespace SumCluster.Word

/-- The first number that does not fit two bytes. -/
abbrev limit16 : Nat := 65536

/-- The first number that does not fit four bytes. -/
abbrev limit32 : Nat := 4294967296

/-- The first number that does not fit eight bytes. -/
abbrev limit64 : Nat := 18446744073709551616

/-- The sum, if it fits a machine word. -/
def add? (a b : Nat) : Option Nat :=
  if a + b < limit64 then some (a + b) else none

end SumCluster.Word
