import SumCluster.Compute
import SumCluster.Config
import SumCluster.Network.Link

/-!
A worker. It opens with its handshake and then answers the subtasks that come, one result for each
and in the order in which they come, until the leader ends the connection or something comes that is
no subtask. What it does depends on nothing but the bytes that reach it, so it can be fed in pieces.
-/

namespace SumCluster

open Network (Arrival Peer)
open Wire

/-- A worker at work. -/
structure Worker where
  workerId : String
  mode : ComputeMode
  /-- Where subtasks come in. -/
  connection : Connection
  /-- The frames that it has sent after its handshake, oldest first, each with the time that it had
  spent computing by then. -/
  sent : List (Nanos × Bytes)
  /-- The time spent computing. -/
  busy : Nanos
  /-- How its work ended, once it has. -/
  ended : Option (Except ProtocolError Unit)

namespace Worker

/-- The handshake that a worker opens with. -/
def handshake (workerId : String) : Message := .handshake ⟨workerId⟩

/-- A worker that has sent its handshake. -/
def fresh (workerId : String) (mode : ComputeMode) : Worker :=
  ⟨workerId, mode, .fresh Frame.defaultLimit, [], 0, none⟩

/-- Opens with the handshake, which fails if the id is too long for a frame. -/
def connect (workerId : String) (mode : ComputeMode) : Except ProtocolError (Bytes × Worker) :=
  (Frame.encode (Frame.limitOf Frame.defaultLimit) (handshake workerId)).map
    (·, fresh workerId mode)

/-- Ends the work. -/
def stop (w : Worker) (outcome : Except ProtocolError Unit) : Worker :=
  { w with ended := some outcome }

/-- The result of a subtask. -/
def result (w : Worker) (request : SubtaskRequest) : SubtaskResult :=
  ⟨(compute w.mode request.values request.delayMs).value, w.workerId⟩

/-- Answers one subtask; a result too long for a frame ends the work. -/
def answer (w : Worker) (request : SubtaskRequest) : Worker :=
  match Frame.encode w.connection.decoder.limit (.subtaskResult (w.result request)) with
  | .ok frame =>
    let busy := w.busy + (compute w.mode request.values request.delayMs).slept
    { w with busy, sent := w.sent ++ [(busy, frame)] }
  | .error e => w.stop (.error e)

/-- Takes in one message. -/
def take (w : Worker) (m : Message) : Worker :=
  match m.asSubtaskRequest with
  | .ok request => w.answer request
  | .error e => w.stop (.error e)

/-- Answers what has come in, until there is nothing more to say. Every message uses up bytes, so as
many rounds as there are bytes, and one, are enough. -/
def serve : Nat → Worker → Worker
  | 0, w => w
  | fuel + 1, w =>
    if w.ended.isSome then w
    else match w.connection.recv with
      | (none, c) => { w with connection := c }
      | (some (.error e), c) => { w with connection := c }.stop (.error e)
      | (some (.ok none), c) => { w with connection := c }.stop (.ok ())
      | (some (.ok (some m)), c) => serve fuel ({ w with connection := c }.take m)

/-- Goes on after something new has come in. -/
def resume (w : Worker) : Worker :=
  w.serve (w.connection.buffer.length + w.connection.waiting.length + 1)

/-- Some bytes come in. -/
def feed (w : Worker) (chunk : Bytes) : Worker :=
  { w with connection := w.connection.arrive chunk }.resume

/-- The leader ends its stream. -/
def finish (w : Worker) : Worker := { w with connection := w.connection.close }.resume

/-- A whole run: the stream comes in pieces and then ends. -/
def run (workerId : String) (mode : ComputeMode) (chunks : List Bytes) : Worker :=
  (chunks.foldl feed (fresh workerId mode)).finish

/-- A whole session with a leader whose stream comes in pieces and then ends: the frames that the
leader gets, the handshake first, and how the work ended. There is none without a handshake. -/
def session (workerId : String) (mode : ComputeMode) (chunks : List Bytes) :
    Except ProtocolError (List Bytes × Except ProtocolError Unit) := do
  let (first, _) ← connect workerId mode
  let w := run workerId mode chunks
  return (first :: w.sent.map (·.2), w.ended.getD (.ok ()))

/-- What a worker sets off when it takes the last of some frames: the results that it had not sent
before, and its departure if that frame ends its work. -/
def reaction (workerId : String) (mode : ComputeMode) (frames : List Bytes) : List Arrival :=
  let before := frames.dropLast.foldl feed (fresh workerId mode)
  let after := frames.foldl feed (fresh workerId mode)
  (after.sent.drop before.sent.length).map
      (fun (busy, frame) => ⟨busy - before.busy, .bytes frame⟩) ++
    if after.ended.isSome then [⟨after.busy - before.busy, .hangUp⟩] else []

/-- A worker as the far end of the leader's connection to it. -/
def peer (workerId : String) (mode : ComputeMode) : Peer := ⟨reaction workerId mode⟩

end Worker

end SumCluster
