import SumCluster.Error
import SumCluster.Text.Blank
import SumCluster.Text.Quoted
import SumCluster.Text.Split

/-!
What a client types: the values as integers between commas, and the delay as one integer that is not
negative. White space around each integer is free. A complaint quotes the first piece that is no
integer, without the white space around it.
-/

namespace SumCluster

open Text (trim isBlankText quote readInt32? splitOn)

/-- What is wrong with something that a client typed. -/
inductive InputError where
  | emptyList
  | notIntegers (piece : List Char)
  | badDelay (piece : List Char)
  | negativeDelay
  deriving DecidableEq, Repr

namespace InputError

/-- The complaint. -/
def detail : InputError → String
  | emptyList => "list cannot be empty"
  | notIntegers piece =>
    "expected comma-separated integers, found " ++ String.ofList (quote piece)
  | badDelay piece => "invalid delay " ++ String.ofList (quote piece)
  | negativeDelay => "delay cannot be negative"

/-- The complaint as a failure of the cluster. -/
def toError (e : InputError) : ClusterError := .invalidInput e.detail

end InputError

namespace TaskInput

/-- One value. -/
def parseValue (piece : List Char) : Except InputError Int32 :=
  match readInt32? (trim piece) with
  | some v => .ok v
  | none => .error (.notIntegers (trim piece))

/-- The values between the commas. -/
def parseValues (text : List Char) : Except InputError (List Int32) :=
  if isBlankText text then .error .emptyList else (splitOn ',' text).mapM parseValue

/-- A delay in milliseconds. -/
def parseDelay (text : List Char) : Except InputError Int32 :=
  match readInt32? (trim text) with
  | none => .error (.badDelay (trim text))
  | some d => if d < 0 then .error .negativeDelay else .ok d

end TaskInput

end SumCluster
