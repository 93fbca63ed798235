import SumCluster.Json.Value
import SumCluster.Text.Hex

/-!
Writing JSON, either without any white space or with one item to a line, indented by two spaces for
each level. A string escapes the quote, the backslash and the controls below the space, five of them
by a letter and the others by their code.
-/

namespace SumCluster.Json

open Text (digits hexChar)

/-- How one character stands in a string literal. -/
def escapeChar (c : Char) : List Char :=
  if c = '"' then ['\\', '"']
  else if c = '\\' then ['\\', '\\']
  else if c.toNat = 8 then ['\\', 'b']
  else if c.toNat = 12 then ['\\', 'f']
  else if c = '\n' then ['\\', 'n']
  else if c = '\r' then ['\\', 'r']
  else if c = '\t' then ['\\', 't']
  else if c.toNat < 32 then
    ['\\', 'u', '0', '0', hexChar (c.toNat / 16), hexChar (c.toNat % 16)]
  else [c]

/-- A string literal; one that is no text names half of a surrogate pair. -/
def printLiteral : Literal → List Char
  | some cs => '"' :: (cs.flatMap escapeChar ++ ['"'])
  | none => ['"', '\\', 'u', 'd', '8', '0', '0', '"']

/-- A minus sign or nothing. -/
def printSign (negative : Bool) : List Char := if negative then ['-'] else []

/-- A number in its form. -/
def printNumber : Number → List Char
  | .int negative n => printSign negative ++ digits n
  | .scaled negative n e =>
    printSign negative ++ digits n ++ 'e' :: (printSign (e < 0) ++ digits e.natAbs)

/-- How items are laid out. -/
inductive Layout where
  /-- No white space at all. -/
  | compact
  /-- One item to a line. -/
  | indented
  deriving DecidableEq, Repr

namespace Layout

/-- A new line at some depth. -/
def newline : Layout → Nat → List Char
  | compact, _ => []
  | indented, depth => '\n' :: List.replicate (2 * depth) ' '

/-- What stands between a name and its value. -/
def colon : Layout → List Char
  | compact => [':']
  | indented => [':', ' ']

end Layout

mutual

/-- A value at some depth. -/
def printAt (layout : Layout) (depth : Nat) : Value → List Char
  | .null => ['n', 'u', 'l', 'l']
  | .bool true => ['t', 'r', 'u', 'e']
  | .bool false => ['f', 'a', 'l', 's', 'e']
  | .number n => printNumber n
  | .string s => printLiteral s
  | .array [] => ['[', ']']
  | .array (v :: vs) =>
    '[' :: (layout.newline (depth + 1) ++ printAt layout (depth + 1) v ++
      printItems layout (depth + 1) vs ++ layout.newline depth ++ [']'])
  | .object [] => ['{', '}']
  | .object (m :: ms) =>
    '{' :: (layout.newline (depth + 1) ++ printMember layout (depth + 1) m ++
      printMembers layout (depth + 1) ms ++ layout.newline depth ++ ['}'])

/-- The items after the first one. -/
def printItems (layout : Layout) (depth : Nat) : List Value → List Char
  | [] => []
  | v :: vs =>
    ',' :: (layout.newline depth ++ printAt layout depth v ++ printItems layout depth vs)

/-- A name and its value. -/
def printMember (layout : Layout) (depth : Nat) : Literal × Value → List Char
  | (name, v) => printLiteral name ++ layout.colon ++ printAt layout depth v

/-- The members after the first one. -/
def printMembers (layout : Layout) (depth : Nat) : List (Literal × Value) → List Char
  | [] => []
  | m :: ms =>
    ',' :: (layout.newline depth ++ printMember layout depth m ++ printMembers layout depth ms)

end

/-- A value as a text. -/
def print (layout : Layout) (v : Value) : String := String.ofList (printAt layout 0 v)

end SumCluster.Json
