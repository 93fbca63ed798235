import SumCluster.Word

/-!
Natural numbers on the wire. A number below 251 is one byte; a larger one is a marker byte that
names a width and then the number in that many little-endian bytes. Writing takes the narrowest
width that holds the number; reading takes any width up to that of the type being read, so a small
number may also arrive in a wide form.
-/

namespace SumCluster.Wire

/-- A stretch of the wire. -/
abbrev Bytes : Type := List UInt8

/-- `n` in `k` bytes, the least significant first; what does not fit is dropped. -/
def littleEndian : Nat → Nat → Bytes
  | 0, _ => []
  | k + 1, n => UInt8.ofNat (n % 256) :: littleEndian k (n / 256)

/-- `n` in `k` bytes, the most significant first. -/
def bigEndian (k n : Nat) : Bytes := (littleEndian k n).reverse

/-- Takes `k` bytes, the least significant first, and gives back the rest. -/
def readLittleEndian : Nat → Bytes → Option (Nat × Bytes)
  | 0, bs => some (0, bs)
  | _ + 1, [] => none
  | k + 1, b :: bs => (readLittleEndian k bs).map fun (n, rest) => (b.toNat + 256 * n, rest)

/-- The number that all the bytes make up, the most significant first. -/
def ofBigEndian (bs : Bytes) : Nat := bs.foldl (fun n b => 256 * n + b.toNat) 0

/-- How wide the type is that a number is read into. -/
inductive Width where
  | word32
  | word64
  deriving DecidableEq, Repr

namespace Varint

/-- Numbers below this are their own single byte. -/
def singleLimit : Nat := 251

/-- The byte that announces a two-byte number. -/
def marker16 : UInt8 := 0xfb

/-- The byte that announces a four-byte number. -/
def marker32 : UInt8 := 0xfc

/-- The byte that announces an eight-byte number. -/
def marker64 : UInt8 := 0xfd

/-- The shortest form of a number that fits eight bytes. -/
def encode (n : Nat) : Bytes :=
  if n < singleLimit then [UInt8.ofNat n]
  else if n < Word.limit16 then marker16 :: littleEndian 2 n
  else if n < Word.limit32 then marker32 :: littleEndian 4 n
  else marker64 :: littleEndian 8 n

/-- Takes one number off the front; a form wider than the type is refused. -/
def decode (width : Width) : Bytes → Option (Nat × Bytes)
  | [] => none
  | b :: bs =>
    if b.toNat < singleLimit then some (b.toNat, bs)
    else if b = marker16 then readLittleEndian 2 bs
    else if b = marker32 then readLittleEndian 4 bs
    else if b = marker64 ∧ width = .word64 then readLittleEndian 8 bs
    else none

end Varint

end SumCluster.Wire
