import SumCluster.Error
import SumCluster.Network.Link

/-!
A client. It sends its task and takes the first message that comes back for the answer; whatever
comes after that is never looked at.
-/

namespace SumCluster

open Network (Link)
open Wire (ClientResponse ErrorResponse Kind Message ProtocolError TaskRequest)

/-- What became of a task. -/
inductive TaskOutcome where
  | completed (r : ClientResponse)
  | rejected (e : ErrorResponse)
  deriving DecidableEq, Repr

namespace Client

/-- What the first answer on the connection means for the task. -/
def judge : Except ProtocolError (Option Message) → Except ClusterError TaskOutcome
  | .error e => .error (.protocol e)
  | .ok none => .error .connectionClosed
  | .ok (some (.clientResponse r)) => .ok (.completed r)
  | .ok (some (.errorResponse e)) => .ok (.rejected e)
  | .ok (some m) => .error (.protocol (.outOfPlace .clientResponse m.kind))

/-- Sends a task on a connection and waits for what becomes of it. There is no outcome if the leader
neither answers nor ends the connection. -/
def submit (l : Link) (task : TaskRequest) : Option (Except ClusterError TaskOutcome) × Link :=
  match l.send (.taskRequest task) with
  | (.error e, l) => (some (.error (.protocol e)), l)
  | (.ok (), l) => match l.recv none with
    | (.answer outcome, l) => (some (judge outcome), l)
    | (_, l) => (none, l)

end Client

end SumCluster
