import SumCluster.Json.Value
import SumCluster.Text.Hex

/-!
Reading JSON. White space is the space, the tab, the line feed and the carriage return. A string
holds no raw control below the space; a number has no needless zero, and at least one digit on each
side of a point and after an `e`. Nothing but white space may follow the value.
-/

namespace SumCluster.Json

open Text (hexValue? isDigit ofDigits)

/-- Whether a character is white space between tokens. -/
def isSpace (c : Char) : Bool := c = ' ' || c = '\t' || c = '\n' || c = '\r'

/-- Skips white space. -/
def skip (cs : List Char) : List Char := cs.dropWhile isSpace

/-- The number that four hexadecimal digits stand for. -/
def hex4? (a b c d : Char) : Option Nat := do
  return 4096 * (← hexValue? a) + 256 * (← hexValue? b) + 16 * (← hexValue? c) + (← hexValue? d)

/-- Whether a code is the first half of a surrogate pair. -/
def isHigh (n : Nat) : Bool := 0xd800 ≤ n && n < 0xdc00

/-- Whether a code is the second half of a surrogate pair. -/
def isLow (n : Nat) : Bool := 0xdc00 ≤ n && n < 0xe000

/-- The character that a surrogate pair stands for. -/
def ofPair (high low : Nat) : Char :=
  Char.ofNat (0x10000 + 1024 * (high - 0xd800) + (low - 0xdc00))

/-- The character that a letter after a backslash stands for. -/
def escaped? : Char → Option Char
  | '"' => some '"'
  | '\\' => some '\\'
  | '/' => some '/'
  | 'b' => some (Char.ofNat 8)
  | 'f' => some (Char.ofNat 12)
  | 'n' => some '\n'
  | 'r' => some '\r'
  | 't' => some '\t'
  | _ => none

/-- A piece of a string literal. -/
inductive Piece where
  /-- A character. -/
  | char (c : Char)
  /-- Half of a surrogate pair. -/
  | half (code : Nat)
  deriving DecidableEq, Repr

/-- The piece that a four-digit escape stands for. -/
def Piece.ofCode (n : Nat) : Piece := if isHigh n || isLow n then half n else char (Char.ofNat n)

/-- The pieces of a string literal after its opening quote, and what follows the closing one. -/
def pieces : List Char → Option (List Piece × List Char)
  | [] => none
  | '"' :: rest => some ([], rest)
  | '\\' :: 'u' :: a :: b :: c :: d :: rest => do
    let n ← hex4? a b c d
    let (ps, rest) ← pieces rest
    some (.ofCode n :: ps, rest)
  | '\\' :: c :: rest => do
    let e ← escaped? c
    let (ps, rest) ← pieces rest
    some (.char e :: ps, rest)
  | c :: rest => do
    if c.toNat < 32 ∨ c = '\\' then none
    let (ps, rest) ← pieces rest
    some (.char c :: ps, rest)

/-- The text that some pieces make up: halves only count as pairs. -/
def joinPieces : List Piece → Literal
  | [] => some []
  | .char c :: ps => (joinPieces ps).map (c :: ·)
  | .half high :: .half low :: ps =>
    if isHigh high && isLow low then (joinPieces ps).map (ofPair high low :: ·) else none
  | .half _ :: _ => none

/-- The rest of a string literal after its opening quote. -/
def stringBody (cs : List Char) : Option (Literal × List Char) :=
  (pieces cs).map fun (ps, rest) => (joinPieces ps, rest)

/-- The digits at the front, at least one. -/
def someDigits (cs : List Char) : Option (List Char × List Char) :=
  if (cs.takeWhile isDigit) = [] then none else some (cs.takeWhile isDigit, cs.dropWhile isDigit)

/-- The digits before a point: no zero before another digit. -/
def wholePart (cs : List Char) : Option (List Char × List Char) :=
  match someDigits cs with
  | some ('0' :: _ :: _, _) => none
  | r => r

/-- The digits after a point, if there is one. -/
def fraction : List Char → Option (Option (List Char) × List Char)
  | '.' :: cs => (someDigits cs).map fun (ds, rest) => (some ds, rest)
  | cs => some (none, cs)

/-- A sign and digits. -/
def signedDigits : List Char → Option (Int × List Char)
  | '-' :: cs => (someDigits cs).map fun (ds, rest) => (-(ofDigits ds : Int), rest)
  | '+' :: cs => (someDigits cs).map fun (ds, rest) => ((ofDigits ds : Int), rest)
  | cs => (someDigits cs).map fun (ds, rest) => ((ofDigits ds : Int), rest)

/-- The power of ten after an `e` of either case, if there is one. -/
def power : List Char → Option (Option Int × List Char)
  | 'e' :: cs => (signedDigits cs).map fun (e, rest) => (some e, rest)
  | 'E' :: cs => (signedDigits cs).map fun (e, rest) => (some e, rest)
  | cs => some (none, cs)

/-- A number after its sign. -/
def unsignedNumber (negative : Bool) (cs : List Char) : Option (Number × List Char) := do
  let (whole, cs) ← wholePart cs
  let (frac, cs) ← fraction cs
  let (exp, cs) ← power cs
  match frac, exp with
  | none, none => some (.int negative (ofDigits whole), cs)
  | _, _ =>
    let tail := frac.getD []
    some (.scaled negative (ofDigits (whole ++ tail)) (exp.getD 0 - tail.length), cs)

/-- A number. -/
def number : List Char → Option (Number × List Char)
  | '-' :: cs => unsignedNumber true cs
  | cs => unsignedNumber false cs

mutual

/-- A value at the front, with no white space before it. -/
def valueAt : Nat → List Char → Option (Value × List Char)
  | 0, _ => none
  | _ + 1, 'n' :: 'u' :: 'l' :: 'l' :: cs => some (.null, cs)
  | _ + 1, 't' :: 'r' :: 'u' :: 'e' :: cs => some (.bool true, cs)
  | _ + 1, 'f' :: 'a' :: 'l' :: 's' :: 'e' :: cs => some (.bool false, cs)
  | _ + 1, '"' :: cs => (stringBody cs).map fun (s, rest) => (.string s, rest)
  | fuel + 1, '[' :: cs => match skip cs with
    | ']' :: rest => some (.array [], rest)
    | cs => (itemsAt fuel cs).map fun (vs, rest) => (.array vs, rest)
  | fuel + 1, '{' :: cs => match skip cs with
    | '}' :: rest => some (.object [], rest)
    | cs => (membersAt fuel cs).map fun (ms, rest) => (.object ms, rest)
  | _ + 1, cs => (number cs).map fun (n, rest) => (.number n, rest)

/-- One or more items and the closing bracket. -/
def itemsAt : Nat → List Char → Option (List Value × List Char)
  | 0, _ => none
  | fuel + 1, cs => do
    let (v, cs) ← valueAt fuel cs
    match skip cs with
    | ']' :: rest => some ([v], rest)
    | ',' :: cs =>
      let (vs, rest) ← itemsAt fuel (skip cs)
      some (v :: vs, rest)
    | _ => none

/-- One or more members and the closing brace. -/
def membersAt : Nat → List Char → Option (List (Literal × Value) × List Char)
  | 0, _ => none
  | fuel + 1, '"' :: cs => do
    let (name, cs) ← stringBody cs
    match skip cs with
    | ':' :: cs =>
      let (v, cs) ← valueAt fuel (skip cs)
      match skip cs with
      | '}' :: rest => some ([(name, v)], rest)
      | ',' :: cs =>
        let (ms, rest) ← membersAt fuel (skip cs)
        some ((name, v) :: ms, rest)
      | _ => none
    | _ => none
  | _ + 1, _ => none

end

/-- The value that a text is the form of, with nothing but white space around it. Each step goes
past a character, so twice as many steps as characters are enough. -/
def parse? (text : String) : Option Value :=
  match valueAt (2 * text.toList.length + 2) (skip text.toList) with
  | some (v, rest) => if skip rest = [] then some v else none
  | none => none

end SumCluster.Json
