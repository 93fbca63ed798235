/-!
Integers written in decimal. Reading takes an optional sign and one or more ASCII digits, leading
zeros included, and nothing else; writing gives the one form without `+` and without leading zeros.
-/

namespace SumCluster.Text

/-- The digit character of a number below ten. -/
def digitChar (d : Nat) : Char := Char.ofNat (48 + d)

/-- The value of a decimal digit. -/
def digitValue (c : Char) : Nat := c.toNat - 48

/-- Whether a character is one of the ten ASCII digits. -/
def isDigit (c : Char) : Bool := 48 ≤ c.toNat && c.toNat ≤ 57

/-- The decimal digits of a natural number. -/
def digits (n : Nat) : List Char :=
  if n < 10 then [digitChar n] else digits (n / 10) ++ [digitChar (n % 10)]
termination_by n

/-- The number that a row of digits stands for. -/
def ofDigits (cs : List Char) : Nat := cs.foldl (fun n c => 10 * n + digitValue c) 0

/-- A number written with one or more digits and nothing else. -/
def readNat? (cs : List Char) : Option Nat :=
  if cs ≠ [] ∧ cs.all isDigit then some (ofDigits cs) else none

/-- An integer: digits after at most one sign. -/
def readInt? : List Char → Option Int
  | '-' :: cs => (readNat? cs).map fun n => -(n : Int)
  | '+' :: cs => (readNat? cs).map fun n => (n : Int)
  | cs => (readNat? cs).map fun n => (n : Int)

/-- An integer within bounds, both included. -/
def readIntIn? (lo hi : Int) (cs : List Char) : Option Int :=
  (readInt? cs).filter fun i => lo ≤ i ∧ i ≤ hi

/-- A 32-bit integer. -/
def readInt32? (cs : List Char) : Option Int32 :=
  (readIntIn? (-2147483648) 2147483647 cs).map Int32.ofInt

/-- A natural number below `limit`, with at most a plus sign. -/
def readNatBelow? (limit : Nat) (cs : List Char) : Option Nat :=
  (match cs with
    | '+' :: cs => readNat? cs
    | cs => readNat? cs).filter (· < limit)

/-- An integer in decimal. -/
def writeInt (i : Int) : List Char :=
  if i < 0 then '-' :: digits i.natAbs else digits i.natAbs

/-- A 32-bit integer in decimal. -/
def writeInt32 (v : Int32) : List Char := writeInt v.toInt

/-- A natural number in decimal, as a string. -/
def natText (n : Nat) : String := String.ofList (digits n)

/-- A 32-bit integer in decimal, as a string. -/
def int32Text (v : Int32) : String := String.ofList (writeInt32 v)

end SumCluster.Text
