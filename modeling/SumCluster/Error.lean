import SumCluster.Wire.Error

/-!
What can go wrong in the cluster. Two failures are told to a client, too few workers and partial
results that agree; every other one only ends the connection.
-/

namespace SumCluster

open Text (natText)
open Wire (ErrorResponse ProtocolError)

/-- A failure anywhere in the cluster. -/
inductive ClusterError where
  /-- A connection failed; the error speaks for itself. -/
  | protocol (e : ProtocolError)
  /-- The operating system refused something. -/
  | io (context cause : String)
  /-- A worker gave no usable answer. -/
  | workerUnreachable (workerId reason : String)
  /-- Fewer workers than a round needs. -/
  | insufficientWorkers (available required : Nat)
  /-- Two partial results were the same. -/
  | consensusFailed (distinct total : Nat)
  /-- The leader ended the connection without an answer. -/
  | connectionClosed
  /-- What somebody typed makes no sense. -/
  | invalidInput (detail : String)
  /-- The settings make no sense. -/
  | configuration (detail : String)
  deriving DecidableEq, Repr

namespace ClusterError

/-- The code of "not enough nodes". -/
def insufficientWorkersCode : Int32 := 1

/-- The code of "consensus check failed". -/
def consensusFailedCode : Int32 := 3

/-- The text of the error. -/
def message : ClusterError → String
  | protocol e => e.message
  | io context _ => "I/O failed while " ++ context
  | workerUnreachable workerId reason => "Worker " ++ workerId ++ " unreachable: " ++ reason
  | insufficientWorkers available required =>
    "Not enough nodes: " ++ natText available ++ " registered, at least " ++ natText required ++
      " required"
  | consensusFailed distinct total =>
    "Consensus check failed: " ++ natText distinct ++ " distinct values among " ++ natText total ++
      " partial results"
  | connectionClosed => "Connection closed before a response arrived"
  | invalidInput detail => "Invalid input: " ++ detail
  | configuration detail => "Invalid configuration: " ++ detail

/-- The texts of what lies behind the error, nearest first. -/
def causes : ClusterError → List String
  | protocol e => e.causes
  | io _ cause => [cause]
  | _ => []

/-- The code that a client is told, for the failures that it is told about. -/
def code? : ClusterError → Option Int32
  | insufficientWorkers _ _ => some insufficientWorkersCode
  | consensusFailed _ _ => some consensusFailedCode
  | _ => none

/-- The reply that a client gets, for the failures that it is told about. -/
def response? (e : ClusterError) : Option ErrorResponse :=
  e.code?.map fun code => ⟨code, e.message⟩

end ClusterError

end SumCluster
