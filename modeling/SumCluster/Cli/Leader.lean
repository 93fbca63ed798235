import SumCluster.Cli.Client
import SumCluster.Leader

/-!
The leader program. It takes the ports for clients and for workers, the address to listen on, the
quorum and the time that each call to a worker may take, and serves until it is interrupted.
-/

namespace SumCluster.Cli.Leader

open Text (readNatBelow?)

/-- What was given on the command line so far. -/
structure Draft where
  clientPort : Option Nat
  workerPort : Option Nat
  host : IpAddress
  minWorkers : Nat
  timeoutMs : Option Nat

/-- How the leader is called. -/
def usage : String :=
  "leader <CLIENT_PORT> <WORKER_PORT> [--bind <BIND>] [--min-workers <MIN_WORKERS>] " ++
    "[--dispatch-timeout-ms <DISPATCH_TIMEOUT_MS>]"

/-- A number that fits a machine word. -/
def readWord? (cs : List Char) : Option Nat := readNatBelow? Word.limit64 cs

/-- What the leader takes. -/
def grammar : Grammar Draft where
  positional
    | 0 => some fun word d => (readPort? word).map fun port => { d with clientPort := some port }
    | 1 => some fun word d => (readPort? word).map fun port => { d with workerPort := some port }
    | _ => none
  flag _ := none
  option name :=
    if name = "bind".toList then
      some fun word d => (IpAddress.read? word).map fun host => { d with host }
    else if name = "min-workers".toList then
      some fun word d => (readWord? word).map fun minWorkers => { d with minWorkers }
    else if name = "dispatch-timeout-ms".toList then
      some fun word d => (readWord? word).map fun ms => { d with timeoutMs := some ms }
    else none

/-- The settings; both ports have to be there. -/
def finish (d : Draft) : Option LeaderConfig := do
  some { LeaderConfig.listening ⟨d.host, 0, ← d.clientPort⟩ ⟨d.host, 0, ← d.workerPort⟩ with
    minWorkers := d.minWorkers
    dispatchTimeout := d.timeoutMs.map Nanos.ofNatMillis }

/-- Reads the command line. -/
def read (words : List String) : Except Run LeaderConfig :=
  (grammar.read ⟨none, none, .v4 0 0 0 0, LeaderConfig.defaultMinWorkers, none⟩ words).proceed
    usage finish

/-- The end of a leader that could not start. -/
def failed (e : ClusterError) : Run := .failure "" (Failure.ofError e).report

/-- The end of a leader that was interrupted. -/
def interrupted : Run := .success ""

end SumCluster.Cli.Leader
