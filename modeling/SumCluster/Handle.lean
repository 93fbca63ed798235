import SumCluster.Error
import SumCluster.Network.Link

/-!
A worker as the leader holds it: the id that it gave, its connection, and whether the connection can
still be trusted. A call sends one subtask and waits for one answer. Any failure, a deadline that
passes included, ends the trust before the next call gets the connection, and a handle that is not
trusted refuses every call without sending anything; so an answer that comes too late is never taken
for the answer to a later request.
-/

namespace SumCluster

open Network (Link Heard)
open Text (natText)
open Wire (Message ProtocolError SubtaskRequest SubtaskResult)

/-- Why a worker gave no usable answer. -/
inductive Unreachable where
  /-- An earlier call has given the connection up. -/
  | abandoned
  /-- The deadline passed. -/
  | noReply (limit : Nanos)
  /-- The worker ended the connection. -/
  | closed
  /-- The connection failed, or the answer was not one. -/
  | broken (e : ProtocolError)
  deriving DecidableEq, Repr

namespace Unreachable

/-- The reason in words. -/
def reason : Unreachable → String
  | abandoned => "connection already abandoned"
  | noReply limit => "no reply within " ++ natText (limit / Nanos.milli) ++ "ms"
  | closed => "connection closed"
  | broken e => e.message

/-- The failure of the cluster when this happens with the worker of some id. -/
def toError (workerId : String) (u : Unreachable) : ClusterError :=
  .workerUnreachable workerId u.reason

end Unreachable

/-- A worker as the leader holds it. -/
structure Handle where
  /-- The id that the worker gave. -/
  workerId : String
  /-- The connection can be trusted. -/
  alive : Bool
  /-- A call on it waits for an answer that will never come, and keeps the connection. -/
  held : Bool
  /-- The connection. -/
  link : Link

/-- What a call comes to: an answer or a failure. -/
abbrev Reply : Type := Except Unreachable SubtaskResult

namespace Handle

/-- A handle on a worker that has just registered. -/
def fresh (workerId : String) (link : Link) : Handle := ⟨workerId, true, false, link⟩

/-- Ends the trust. -/
def kill (h : Handle) : Handle := { h with alive := false }

/-- What an answer on the connection means for the call. -/
def judge : Except ProtocolError (Option Message) → Reply
  | .error e => .error (.broken e)
  | .ok none => .error .closed
  | .ok (some m) => match m.asSubtaskResult with
    | .ok r => .ok r
    | .error e => .error (.broken e)

/-- Ends a call: a failure ends the trust. -/
def conclude (h : Handle) (link : Link) : Reply → Reply × Handle
  | .ok r => (.ok r, { h with link := link })
  | .error u => (.error u, { h with link := link }.kill)

/-- Sends a subtask and waits for its answer, for at most `limit` from now on. No reply means that
the call waits forever. -/
def exchange (h : Handle) (request : SubtaskRequest) (limit : Option Nanos) :
    Option Reply × Handle :=
  match h.link.send (.subtaskRequest request) with
  | (.error e, link) => let (r, h) := h.conclude link (.error (.broken e)); (some r, h)
  | (.ok (), link) =>
    match link.recv (limit.map (link.now + ·)) with
    | (.answer outcome, link) => let (r, h) := h.conclude link (judge outcome); (some r, h)
    | (.expired, link) =>
      let (r, h) := h.conclude link (.error (.noReply (limit.getD 0))); (some r, h)
    | (.silence, link) => (none, { h with link := link, held := true })

/-- One call, begun at a moment: it waits until the connection is free, and its deadline counts from
then on. -/
def call (h : Handle) (start : Nanos) (request : SubtaskRequest) (limit : Option Nanos) :
    Option Reply × Handle :=
  if h.held then (none, h)
  else if h.alive then { h with link := h.link.advance start }.exchange request limit
  else (some (.error .abandoned), { h with link := h.link.advance start })

/-- The worker disappears at a moment. -/
def cut (h : Handle) (t : Nanos) : Handle := { h with link := h.link.cut t }

end Handle

end SumCluster
