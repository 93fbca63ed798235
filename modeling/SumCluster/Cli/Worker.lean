import SumCluster.Cli.Client
import SumCluster.Worker

/-!
The worker program. It takes the leader's host and port, a flag that makes it faulty, and its id,
and works until the leader ends the connection.
-/

namespace SumCluster.Cli.Worker

open Text (natText readIntIn?)

/-- What was given on the command line so far. -/
structure Draft where
  host : Option String
  port : Option Nat
  mode : ComputeMode
  workerId : Option String

/-- The command line of the worker. -/
structure Arguments where
  host : String
  port : Nat
  mode : ComputeMode
  workerId : Option String

/-- How the worker is called. -/
def usage : String :=
  "worker <LEADER_HOST> <LEADER_PORT> [SIMULATE_FAULT] [--worker-id <WORKER_ID>]"

/-- The mode that a flag asks for. -/
def readMode? (cs : List Char) : Option ComputeMode :=
  (readIntIn? 0 1 cs).bind fun flag => ComputeMode.ofFlag flag.toNat

/-- What the worker takes. -/
def grammar : Grammar Draft where
  positional
    | 0 => some fun word d => some { d with host := some (String.ofList word) }
    | 1 => some fun word d => (readPort? word).map fun port => { d with port := some port }
    | 2 => some fun word d => (readMode? word).map fun mode => { d with mode }
    | _ => none
  flag _ := none
  option name :=
    if name = "worker-id".toList then
      some fun word d => some { d with workerId := some (String.ofList word) }
    else none

/-- The host and the port have to be there. -/
def finish (d : Draft) : Option Arguments := do
  some ⟨← d.host, ← d.port, d.mode, d.workerId⟩

/-- Reads the command line. -/
def read (words : List String) : Except Run Arguments :=
  (grammar.read ⟨none, none, .honest, none⟩ words).proceed usage finish

/-- The settings that the command line asks for; `bits` make the id if none is given. -/
def config (a : Arguments) (bits : Nat) : WorkerConfig :=
  let fresh := WorkerConfig.fresh (a.host ++ ":" ++ natText a.port) bits
  { fresh with mode := a.mode, workerId := a.workerId.getD fresh.workerId }

/-- The end of a worker that could not register. -/
def unregistered (e : ClusterError) : Run :=
  .failure "" (Failure.during "failed to register with leader" e).report

/-- The end of a worker that has worked. -/
def conclude : Except ClusterError Unit → Run
  | .ok () => .success ""
  | .error e => .failure "" (Failure.ofError e).report

end SumCluster.Cli.Worker
