import SumCluster.Client
import SumCluster.Compute
import SumCluster.Json.Value
import SumCluster.Round
import SumCluster.Word

/-!
The JSON forms of what the program stores and reports. A record is an object with its fields by
name, in any order and among others that do not matter, or an array of exactly its fields in order.
A message is an object whose only name is its kind. An outcome carries its status among the fields
of its record; because the status may come last, the whole object has to be well behaved: all
strings are texts, all numbers stay finite as doubles, and it is not nested too deeply.
-/

namespace SumCluster.Json

open Wire

/-- The JSON form of a type. -/
structure Shape (α : Type) where
  write : α → Value
  read? : Value → Option α

/-- The one member with some name. -/
def member? (name : String) (members : List (Literal × Value)) : Option Value :=
  match members.filter fun m => m.1 = some name.toList with
  | [(_, v)] => some v
  | _ => none

/-- The fields of a record in order, each of them once. -/
def fields? (names : List String) : Value → Option (List Value)
  | .object members =>
    if members.all (·.1.isSome) then names.mapM (member? · members) else none
  | .array items => if items.length = names.length then some items else none
  | _ => none

namespace Shape

/-- An integer within bounds. -/
def intIn? (lo hi : Int) (v : Value) : Option Int := v.int?.filter fun i => lo ≤ i ∧ i ≤ hi

/-- A 32-bit integer. -/
def int32 : Shape Int32 where
  write v := .ofInt v.toInt
  read? v := (intIn? (-2147483648) 2147483647 v).map Int32.ofInt

/-- A natural number that is a machine word. -/
def word : Shape Nat where
  write n := .ofInt n
  read? v := (intIn? 0 18446744073709551615 v).map Int.toNat

/-- A text. -/
def text : Shape String where
  write := .ofString
  read? := Value.text?

/-- A list of 32-bit integers. -/
def int32s : Shape (List Int32) where
  write vs := .array (vs.map int32.write)
  read?
    | .array items => items.mapM int32.read?
    | _ => none

/-- A record of one field. -/
def record1 {α β : Type} (name : String) (a : Shape α) (make : α → β) (get : β → α) : Shape β where
  write x := .ofFields [(name, a.write (get x))]
  read? v := match fields? [name] v with
    | some [x] => (a.read? x).map make
    | _ => none

/-- A record of two fields. -/
def record2 {α β γ : Type} (name name2 : String) (a : Shape α) (b : Shape β) (make : α → β → γ)
    (get : γ → α × β) : Shape γ where
  write x := .ofFields [(name, a.write (get x).1), (name2, b.write (get x).2)]
  read? v := match fields? [name, name2] v with
    | some [x, y] => do return make (← a.read? x) (← b.read? y)
    | _ => none

/-- A record of three fields. -/
def record3 {α β γ δ : Type} (name name2 name3 : String) (a : Shape α) (b : Shape β) (c : Shape γ)
    (make : α → β → γ → δ) (get : δ → α × β × γ) : Shape δ where
  write x := .ofFields [(name, a.write (get x).1), (name2, b.write (get x).2.1),
    (name3, c.write (get x).2.2)]
  read? v := match fields? [name, name2, name3] v with
    | some [x, y, z] => do return make (← a.read? x) (← b.read? y) (← c.read? z)
    | _ => none

/-- The form of a handshake. -/
def handshake : Shape Handshake := record1 "worker_id" text .mk (·.workerId)

/-- The form of a task. -/
def taskRequest : Shape TaskRequest :=
  record2 "values" "delay_ms" int32s int32 .mk fun t => (t.values, t.delayMs)

/-- The form of a subtask. -/
def subtaskRequest : Shape SubtaskRequest :=
  record2 "values" "delay_ms" int32s int32 .mk fun t => (t.values, t.delayMs)

/-- The form of a result. -/
def subtaskResult : Shape SubtaskResult :=
  record2 "sum" "worker_id" int32 text .mk fun r => (r.sum, r.workerId)

/-- The form of a response. -/
def clientResponse : Shape ClientResponse :=
  record3 "sum" "baseline_ms" "distributed_ms" int32 int32 int32 .mk
    fun r => (r.sum, r.baselineMs, r.distributedMs)

/-- The form of a refusal. -/
def errorResponse : Shape ErrorResponse :=
  record2 "code" "message" int32 text .mk fun e => (e.code, e.message)

/-- The form of a partial result. -/
def partialResult : Shape PartialResult :=
  record3 "index" "worker_id" "value" word text int32 .mk fun p => (p.index, p.workerId, p.value)

/-- The form of what a message says, without its kind. -/
def writeContent : Message → Value
  | .handshake h => handshake.write h
  | .taskRequest t => taskRequest.write t
  | .subtaskRequest s => subtaskRequest.write s
  | .subtaskResult r => subtaskResult.write r
  | .clientResponse r => clientResponse.write r
  | .errorResponse e => errorResponse.write e

/-- Reads what a message of some kind says. -/
def readContent? (v : Value) : Kind → Option Message
  | .handshake => (handshake.read? v).map .handshake
  | .taskRequest => (taskRequest.read? v).map .taskRequest
  | .subtaskRequest => (subtaskRequest.read? v).map .subtaskRequest
  | .subtaskResult => (subtaskResult.read? v).map .subtaskResult
  | .clientResponse => (clientResponse.read? v).map .clientResponse
  | .errorResponse => (errorResponse.read? v).map .errorResponse

/-- The form of a message. -/
def message : Shape Message where
  write m := .ofFields [(m.kind.name, writeContent m)]
  read?
    | .object [(some name, v)] =>
      (Kind.all.find? fun k => k.name.toList = name).bind (readContent? v)
    | _ => none

/-- The name of a mode. -/
def modeName : ComputeMode → String
  | .honest => "Honest"
  | .faulty => "Faulty"

/-- The mode with some name. -/
def modeOf? (name : List Char) : Option ComputeMode :=
  [ComputeMode.honest, .faulty].find? fun m => (modeName m).toList = name

/-- The form of a mode: its name, alone or as the only name of an object that says nothing else. -/
def computeMode : Shape ComputeMode where
  write m := .ofString (modeName m)
  read?
    | .string (some name) => modeOf? name
    | .object [(some name, .null)] => modeOf? name
    | _ => none

end Shape

/-- The nearest number of at most 53 binary digits; of two that are equally near, the one whose last
digit is even. -/
def roundBinary (n : Nat) : Nat :=
  let unit := 1 <<< (n.log2 + 1 - 53)
  let below := n / unit
  if 2 * (n % unit) < unit ∨ (2 * (n % unit) = unit ∧ below % 2 = 0) then below * unit
  else (below + 1) * unit

/-- The first digits of a number, as many as fit a machine word, and the power of ten that scales
them: each digit left out adds one. -/
def leadingWord (n : Nat) (e : Int) : Nat × Int :=
  if n < Word.limit64 then (n, e) else leadingWord (n / 10) (e + 1)
termination_by n
decreasing_by unfold Word.limit64 at *; omega

/-- Whether a number stays finite as a double: its leading digits and its power of ten are each
rounded to a double, and so is their product, which must be below the first number out of range. -/
def Number.isFinite (x : Number) : Bool :=
  let (n, e) := match x with
    | .int _ n => leadingWord n 0
    | .scaled _ n e => leadingWord n e
  n = 0 || e < 0 ||
    (e ≤ 308 && roundBinary (roundBinary n * roundBinary (Nat.pow 10 e.toNat)) < 1 <<< 1024)

mutual

/-- How deeply a value is nested. -/
def depth : Value → Nat
  | .array items => depthItems items + 1
  | .object members => depthMembers members + 1
  | _ => 0

/-- How deeply the deepest item is nested. -/
def depthItems : List Value → Nat
  | [] => 0
  | v :: vs => max (depth v) (depthItems vs)

/-- How deeply the deepest member is nested. -/
def depthMembers : List (Literal × Value) → Nat
  | [] => 0
  | (_, v) :: ms => max (depth v) (depthMembers ms)

end

mutual

/-- Whether all strings are texts and all numbers are in range. -/
def isPlain : Value → Bool
  | .number n => n.isFinite
  | .string s => s.isSome
  | .array items => arePlain items
  | .object members => membersPlain members
  | _ => true

/-- Whether all items are plain. -/
def arePlain : List Value → Bool
  | [] => true
  | v :: vs => isPlain v && arePlain vs

/-- Whether all names and members are plain. -/
def membersPlain : List (Literal × Value) → Bool
  | [] => true
  | (name, v) :: ms => name.isSome && isPlain v && membersPlain ms

end

/-- The deepest nesting that is taken in whole. -/
def maxDepth : Nat := 127

namespace Shape

/-- Reads the record that goes with a status. -/
def readOutcome? (v : Value) (status : String) : Option TaskOutcome :=
  if status = "completed" then (clientResponse.read? v).map .completed
  else if status = "rejected" then (errorResponse.read? v).map .rejected
  else none

/-- The members of a record, after a status. -/
def withStatus (status : String) : Value → Value
  | .object members => .object ((some "status".toList, .ofString status) :: members)
  | v => v

/-- The form of an outcome. -/
def taskOutcome : Shape TaskOutcome where
  write
    | .completed r => withStatus "completed" (clientResponse.write r)
    | .rejected e => withStatus "rejected" (errorResponse.write e)
  read? v :=
    if isPlain v && depth v ≤ maxDepth then
      match v with
      | .object members => do
        let status ← (← member? "status" members).text?
        readOutcome? (.object (members.filter fun m => m.1 ≠ some "status".toList)) status
      | .array (tag :: items) => do readOutcome? (.array items) (← tag.text?)
      | _ => none
    else none

end Shape

end SumCluster.Json
