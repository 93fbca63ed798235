import SumCluster.Text.Hex
import SumCluster.Text.Split
import SumCluster.Word

/-!
Internet addresses. Version 4 is four numbers between dots; version 6 is eight groups of hexadecimal
digits between colons, of which a run of zero groups may be written as two colons and the last two
may be written as a version 4 address. Writing gives the usual short form: two colons for the first
longest run of two or more zero groups, and dots for an address that only carries one of version 4.
With a port, a version 6 address stands in brackets, and may name its network there by a number.
-/

namespace SumCluster

open Text (natText hexDigits hexValue? isDigit ofDigits splitOn)

/-- An address of a machine. -/
inductive IpAddress where
  | v4 (a b c d : Nat)
  | v6 (groups : List Nat)
  deriving DecidableEq, Repr

/-- An address and a port. -/
structure Endpoint where
  host : IpAddress
  /-- The network that a version 6 address is meant for; zero if none is named. -/
  zone : Nat
  port : Nat
  deriving DecidableEq, Repr

namespace IpAddress

/-- One of the numbers of a version 4 address: up to three digits, no needless zero, at most 255. -/
def readOctet? (cs : List Char) : Option Nat :=
  if cs ≠ [] ∧ cs.all isDigit ∧ cs.length ≤ 3 ∧ (cs.head? = some '0' → cs.length = 1) ∧
      ofDigits cs ≤ 255 then some (ofDigits cs) else none

/-- A version 4 address. -/
def readV4? (cs : List Char) : Option (Nat × Nat × Nat × Nat) :=
  match (splitOn '.' cs).map readOctet? with
  | [some a, some b, some c, some d] => some (a, b, c, d)
  | _ => none

/-- One group of a version 6 address: one to four hexadecimal digits. -/
def readGroup? (cs : List Char) : Option Nat :=
  if cs = [] ∨ 4 < cs.length then none
  else cs.foldlM (fun n c => (hexValue? c).map (16 * n + ·)) 0

/-- The groups of one side of a version 6 address; the last piece may be in version 4 form if that
is allowed here. -/
def readGroups? (v4Last : Bool) : List (List Char) → Option (List Nat)
  | [] => some []
  | [last] => match readGroup? last with
    | some g => some [g]
    | none => if v4Last then
        (readV4? last).map fun (a, b, c, d) => [256 * a + b, 256 * c + d]
      else none
  | p :: ps => do
    let g ← readGroup? p
    let gs ← readGroups? v4Last ps
    some (g :: gs)

/-- The groups of one side, which may be empty. -/
def readSide? (v4Last : Bool) (cs : List Char) : Option (List Nat) :=
  if cs = [] then some [] else readGroups? v4Last (splitOn ':' cs)

/-- What stands before the first pair of colons and what stands after it. -/
def splitPair : List Char → Option (List Char × List Char)
  | ':' :: ':' :: rest => some ([], rest)
  | c :: rest => (splitPair rest).map fun (before, after) => (c :: before, after)
  | [] => none

/-- The eight groups of a version 6 address. -/
def readV6? (cs : List Char) : Option (List Nat) :=
  match splitPair cs with
  | none => (readSide? true cs).filter (·.length = 8)
  | some (before, after) => do
    let front ← readSide? false before
    let back ← readSide? true after
    if front.length + back.length < 8 then
      some (front ++ List.replicate (8 - front.length - back.length) 0 ++ back)
    else none

/-- An address of either version. -/
def read? (text : List Char) : Option IpAddress :=
  match readV4? text with
  | some (a, b, c, d) => some (.v4 a b c d)
  | none => (readV6? text).map .v6

/-- How many groups at the front are zero. -/
def zeros (groups : List Nat) : Nat := (groups.takeWhile (· = 0)).length

/-- The place and the length of the first longest run of zero groups. -/
def longestZeros : List Nat → Nat × Nat
  | [] => (0, 0)
  | g :: gs =>
    let (place, count) := longestZeros gs
    if count ≤ zeros (g :: gs) then (0, zeros (g :: gs)) else (place + 1, count)

/-- Groups between colons. -/
def groupsText (groups : List Nat) : String :=
  ":".intercalate (groups.map fun g => String.ofList (hexDigits g))

/-- The four numbers between dots. -/
def v4Text (a b c d : Nat) : String := ".".intercalate [natText a, natText b, natText c, natText d]

/-- An address in its usual form. -/
def text : IpAddress → String
  | v4 a b c d => v4Text a b c d
  | v6 [0, 0, 0, 0, 0, 0xffff, ab, cd] =>
    "::ffff:" ++ v4Text (ab / 256) (ab % 256) (cd / 256) (cd % 256)
  | v6 groups =>
    let (place, count) := longestZeros groups
    if 1 < count then
      groupsText (groups.take place) ++ "::" ++ groupsText (groups.drop (place + count))
    else groupsText groups

end IpAddress

namespace Endpoint

/-- A port: digits whose value is at most 65535. -/
def readPort? (cs : List Char) : Option Nat :=
  (Text.readNat? cs).filter (· < 65536)

/-- A zone: digits whose value fits 32 bits. -/
def readZone? (cs : List Char) : Option Nat :=
  (Text.readNat? cs).filter (· < Word.limit32)

/-- What stands between the brackets: a version 6 address, and its zone after a percent sign. -/
def readHost? (cs : List Char) : Option (IpAddress × Nat) := do
  match Text.splitFirst '%' cs with
  | (host, none) => some (.v6 (← IpAddress.readV6? host), 0)
  | (host, some zone) => some (.v6 (← IpAddress.readV6? host), ← readZone? zone)

/-- An address and a port; a version 6 address stands in brackets. -/
def read? (text : List Char) : Option Endpoint :=
  match text with
  | '[' :: rest =>
    match splitOn ']' rest with
    | [inside, ':' :: port] => do
      let (host, zone) ← readHost? inside
      some ⟨host, zone, ← readPort? port⟩
    | _ => none
  | _ =>
    match splitOn ':' text with
    | [host, port] => do
      let (a, b, c, d) ← IpAddress.readV4? host
      some ⟨.v4 a b c d, 0, ← readPort? port⟩
    | _ => none

/-- The zone after a percent sign, unless it is zero. -/
def zoneText (zone : Nat) : String := if zone = 0 then "" else "%" ++ natText zone

/-- An address and a port in their usual form. -/
def text (e : Endpoint) : String :=
  match e.host with
  | .v4 .. => e.host.text ++ ":" ++ natText e.port
  | .v6 _ => "[" ++ e.host.text ++ zoneText e.zone ++ "]:" ++ natText e.port

end Endpoint

end SumCluster
