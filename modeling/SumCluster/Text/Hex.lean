import SumCluster.Text.Integer

/-!
Hexadecimal digits. They are written in lower case and read in either case.
-/

namespace SumCluster.Text

/-- The lower-case hexadecimal digit of a number below sixteen. -/
def hexChar (d : Nat) : Char := if d < 10 then Char.ofNat (48 + d) else Char.ofNat (87 + d)

/-- The value of a hexadecimal digit of either case. -/
def hexValue? (c : Char) : Option Nat :=
  if isDigit c then some (c.toNat - 48)
  else if 97 ≤ c.toNat ∧ c.toNat ≤ 102 then some (c.toNat - 87)
  else if 65 ≤ c.toNat ∧ c.toNat ≤ 70 then some (c.toNat - 55)
  else none

/-- The hexadecimal digits of a natural number. -/
def hexDigits (n : Nat) : List Char :=
  if n < 16 then [hexChar n] else hexDigits (n / 16) ++ [hexChar (n % 16)]
termination_by n

/-- `n` in `k` hexadecimal digits; what does not fit is dropped. -/
def hexFixed : Nat → Nat → List Char
  | 0, _ => []
  | k + 1, n => hexFixed k (n / 16) ++ [hexChar (n % 16)]

/-- Bytes in hexadecimal, two digits each. -/
def hexOfBytes (bs : List UInt8) : List Char := bs.flatMap fun b => hexFixed 2 b.toNat

/-- The bytes that pairs of hexadecimal digits stand for. -/
def bytesOfHex? : List Char → Option (List UInt8)
  | [] => some []
  | a :: b :: rest => do
    let n := 16 * (← hexValue? a) + (← hexValue? b)
    let bs ← bytesOfHex? rest
    some (UInt8.ofNat n :: bs)
  | [_] => none

end SumCluster.Text
