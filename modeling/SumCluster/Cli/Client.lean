import SumCluster.Cli.Arguments
import SumCluster.Json.Printer
import SumCluster.Json.Shape
import SumCluster.Report
import SumCluster.TaskInput

/-!
The client program. It takes the leader's host and port, and the values and the delay, which it asks
for one after the other when they are not given; then it submits the task and tells what became of
it, in words or as JSON.
-/

namespace SumCluster.Cli

open Text (int32Text readIntIn?)
open Wire (TaskRequest)

/-- The number of a port. -/
def readPort? (cs : List Char) : Option Nat := (readIntIn? 0 65535 cs).map Int.toNat

namespace Client

/-- What was given on the command line so far. -/
structure Draft where
  host : Option String
  port : Option Nat
  values : Option (List Char)
  delay : Option (List Char)
  json : Bool

/-- The command line of the client. -/
structure Arguments where
  host : String
  port : Nat
  values : Option (List Char)
  delay : Option (List Char)
  json : Bool

/-- How the client is called. -/
def usage : String :=
  "client <LEADER_HOST> <LEADER_PORT> [--values <VALUES>] [--delay-ms <DELAY_MS>] [--json]"

/-- What the client takes. -/
def grammar : Grammar Draft where
  positional
    | 0 => some fun word d => some { d with host := some (String.ofList word) }
    | 1 => some fun word d => (readPort? word).map fun port => { d with port := some port }
    | _ => none
  flag name := if name = "json".toList then some fun d => { d with json := true } else none
  option name :=
    if name = "values".toList then some fun word d => some { d with values := some word }
    else if name = "delay-ms".toList then some fun word d => some { d with delay := some word }
    else none

/-- The host and the port have to be there. -/
def finish (d : Draft) : Option Arguments := do
  some ⟨← d.host, ← d.port, d.values, d.delay, d.json⟩

/-- Reads the command line. -/
def read (words : List String) : Except Run Arguments :=
  (grammar.read ⟨none, none, none, none, false⟩ words).proceed usage finish

/-- A conversation: questions that are answered with one line each. -/
inductive Dialogue (α : Type) where
  | done (a : α)
  | ask (question : String) (next : List Char → Dialogue α)

/-- The question for the values. -/
def askValues : String := "Enter comma-separated list of integers: "

/-- The question for the delay. -/
def askDelay : String := "Enter delay in milliseconds: "

/-- Uses what was given, or asks for it. -/
def orAsk {α : Type} (given : Option (List Char)) (question : String)
    (next : List Char → Dialogue α) : Dialogue α :=
  match given with
  | some text => next text
  | none => .ask question next

/-- Finds out the task. Values that make no sense end it before the delay is asked for. -/
def task (a : Arguments) : Dialogue (Except InputError TaskRequest) :=
  orAsk a.values askValues fun text =>
    match TaskInput.parseValues text with
    | .error e => .done (.error e)
    | .ok values => orAsk a.delay askDelay fun text =>
      .done ((TaskInput.parseDelay text).map (⟨values, ·⟩))

/-- One line with its line feed, and what follows it; at the end of the input the line is empty. -/
def takeLine : List Char → List Char × List Char
  | [] => ([], [])
  | '\n' :: rest => (['\n'], rest)
  | c :: rest => (c :: (takeLine rest).1, (takeLine rest).2)

/-- Holds a conversation with an input that is known in advance; gives what was asked, and what came
of it. -/
def Dialogue.answer {α : Type} : Dialogue α → List Char → String × α
  | .done a, _ => ("", a)
  | .ask question next, input =>
    let (said, a) := (next (takeLine input).1).answer (takeLine input).2
    (question ++ said, a)

/-- An outcome in words. -/
def describe : TaskOutcome → String
  | .completed r =>
    "====== Result ======\nSum: " ++ int32Text r.sum ++ "\nSingle-threaded time: " ++
      int32Text r.baselineMs ++ " ms\nDistributed time: " ++ int32Text r.distributedMs ++ " ms\n"
  | .rejected e => "ERROR (" ++ int32Text e.code ++ "): " ++ e.message ++ "\n"

/-- An outcome as the arguments ask for it. -/
def render (a : Arguments) (o : TaskOutcome) : String :=
  if a.json then Json.print .indented (Json.Shape.taskOutcome.write o) ++ "\n" else describe o

/-- What the client asked, and the task it then submits, or the end it came to without one. -/
def prepare (words : List String) (stdin : List Char) :
    Except Run (Arguments × String × TaskRequest) :=
  match read words with
  | .error run => .error run
  | .ok a => match (task a).answer stdin with
    | (said, .error e) => .error (.failure said (Failure.ofError e.toError).report)
    | (said, .ok t) => .ok (a, said, t)

/-- The end of the client once it knows what became of its task. -/
def conclude (a : Arguments) (said : String) : Except ClusterError TaskOutcome → Run
  | .ok o => .success (said ++ render a o)
  | .error e => .failure said (Failure.during "request to leader failed" e).report

end Client

end SumCluster.Cli
