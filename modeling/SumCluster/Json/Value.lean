/-!
JSON values as their text gives them. A string literal may name half of a surrogate pair on its own;
such a literal is no text, and it is kept as `none`, because a reader may still skip over it. A
number keeps its form: an integer its sign and magnitude, any other one its digits and the power of
ten that they are scaled by.
-/

namespace SumCluster.Json

/-- What a string literal stands for; `none` if it names half of a surrogate pair. -/
abbrev Literal : Type := Option (List Char)

/-- A number in the form in which it was written. -/
inductive Number where
  /-- Digits after at most a minus sign. -/
  | int (negative : Bool) (magnitude : Nat)
  /-- Digits that are scaled by a power of ten. -/
  | scaled (negative : Bool) (digits : Nat) (exponent : Int)
  deriving DecidableEq, Repr

/-- A JSON value; members keep their order, and a name may occur more than once. -/
inductive Value where
  | null
  | bool (b : Bool)
  | number (n : Number)
  | string (s : Literal)
  | array (items : List Value)
  | object (members : List (Literal × Value))
  deriving Repr

namespace Value

/-- A text as a value. -/
def ofString (s : String) : Value := .string (some s.toList)

/-- An integer as a value. -/
def ofInt (i : Int) : Value := .number (.int (i < 0) i.natAbs)

/-- An object with known names. -/
def ofFields (fields : List (String × Value)) : Value :=
  .object (fields.map fun (name, v) => (some name.toList, v))

/-- The integer that a value stands for; minus zero is none. -/
def int? : Value → Option Int
  | .number (.int false n) => some n
  | .number (.int true n) => if n = 0 then none else some (-(n : Int))
  | _ => none

/-- The text that a value stands for. -/
def text? : Value → Option String
  | .string (some cs) => some (String.ofList cs)
  | _ => none

end Value

end SumCluster.Json
