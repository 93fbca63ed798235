import SumCluster.Cli.Client
import SumCluster.Service.Channel

/-!
The client program at work: it asks for what is missing, submits the task and waits for the answer.
-/

namespace SumCluster.Service.Client

open Cli (Run)
open Cli.Client (Dialogue)
open Std.Async
open Wire (TaskRequest)

/-- Holds a conversation over standard input and output. -/
def converse {α : Type} : Dialogue α → IO α
  | .done a => pure a
  | .ask question next => do
    let output ← IO.getStdout
    output.putStr question
    output.flush
    let line ← (← IO.getStdin).getLine
    converse (next line.toList)

/-- Submits a task to a leader. -/
def submit (host : String) (port : Nat) (task : TaskRequest) :
    Async (Except ClusterError TaskOutcome) := do
  match ← Channel.connect host port with
  | .error e => return .error (.protocol e)
  | .ok channel => match ← channel.send (.taskRequest task) with
    | .error e => return .error (.protocol e)
    | .ok () => return SumCluster.Client.judge (← channel.recv)

/-- The whole program. -/
def run (words : List String) : Async Run := do
  match Cli.Client.read words with
  | .error run => return run
  | .ok a => match ← converse (Cli.Client.task a) with
    | .error e => return .failure "" (Failure.ofError e.toError).report
    | .ok task => return Cli.Client.conclude a "" (← submit a.host a.port task)

end SumCluster.Service.Client
