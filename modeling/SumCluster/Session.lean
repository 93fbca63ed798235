import SumCluster.Compute
import SumCluster.Order
import SumCluster.Overlap

/-!
The leader's side of one client connection. A session waits for a task, computes the baseline,
checks the quorum, hands the task out, checks the partial results, and answers once. Whatever comes
first and is not a task ends the session without an answer; nothing after the task is looked at.
Of sessions that go on at the same time, the one whose baseline is ready first checks the quorum and
calls the workers first.
-/

namespace SumCluster

open Network (Link Heard)
open Wire (ClientResponse Message ProtocolError TaskRequest)

/-- Where a session stands. -/
inductive SessionState where
  | awaitingTask
  | computingBaseline
  | checkingQuorum
  | dispatching
  | validating
  | responding
  | closed
  deriving DecidableEq, Repr

namespace SessionState

/-- The name of a state. -/
def name : SessionState → String
  | awaitingTask => "AwaitingTask"
  | computingBaseline => "ComputingBaseline"
  | checkingQuorum => "CheckingQuorum"
  | dispatching => "Dispatching"
  | validating => "Validating"
  | responding => "Responding"
  | closed => "Closed"

end SessionState

/-- Why a session ended without an answer that was sent. -/
inductive Closing where
  /-- What came first was not a task. -/
  | noTask (e : ProtocolError)
  /-- Nothing came before the client ended its stream. -/
  | left
  /-- The answer could not be sent. -/
  | unsent (e : ProtocolError)
  deriving DecidableEq, Repr

/-- The note that is kept of it. -/
def Closing.note : Closing → String
  | noTask e => "Closing client: " ++ e.message
  | left => "Client closed without sending a task"
  | unsent e => "Failed to send response: " ++ e.message

/-- What a session has been through: its states in order, and why it ended without an answer, if it
did. -/
structure SessionRecord where
  states : List SessionState
  closing : Option Closing
  deriving DecidableEq, Repr

/-- The steps from each state to the next. -/
def SessionRecord.transitions (r : SessionRecord) : List (SessionState × SessionState) :=
  r.states.zip r.states.tail

/-- A session up to the point where its task is handed out. -/
inductive Stage where
  /-- The client has not sent a whole message and may still do so. -/
  | waiting
  /-- The session is over without a task. -/
  | over (closing : Closing)
  /-- The task is refused for want of workers. -/
  | refused (task : TaskRequest) (e : ClusterError)
  /-- The task goes out to the workers of a snapshot. -/
  | dispatching (task : TaskRequest) (snapshot : List HandleId)

namespace Session

/-- What the first answer on the connection means for the session. -/
def judge : Except ProtocolError (Option Message) → Except Closing TaskRequest
  | .error e => .error (.noTask e)
  | .ok none => .error .left
  | .ok (some m) => match m.asTaskRequest with
    | .ok task => .ok task
    | .error e => .error (.noTask e)

/-- Waits for the task; nothing is heard while it may still come. -/
def read (client : Link) : Option (Except Closing TaskRequest) × Link :=
  match client.recv none with
  | (.answer outcome, client) => (some (judge outcome), client)
  | (_, client) => (none, client)

/-- Goes on from what was heard, with the snapshot for the round or the want of workers. -/
def enter (snapshot : Except ClusterError (List HandleId)) :
    Option (Except Closing TaskRequest) → Stage
  | none => .waiting
  | some (.error closing) => .over closing
  | some (.ok task) => match snapshot with
    | .error e => .refused task e
    | .ok snapshot => .dispatching task snapshot

/-- The round that a stage asks for, which is empty for a session that hands nothing out. -/
def round (d : Dispatcher) (client : Link) : Stage → Round
  | .dispatching task snapshot =>
    ⟨task, snapshot, client.now + (baseline task.values task.delayMs).slept, d.limit⟩
  | _ => ⟨⟨[], 0⟩, [], client.now, d.limit⟩

/-- The answer to a task whose round is over. -/
def answer (task : TaskRequest) (o : RoundOutcome) : Except ClusterError ClientResponse := do
  Consensus.validate o.partials
  return ⟨aggregate o.partials, Nanos.toMillis (baseline task.values task.delayMs).slept,
    Nanos.toMillis o.elapsed⟩

/-- The message that an answer is sent as; a failure that clients are not told about is none. -/
def reply? : Except ClusterError ClientResponse → Option Message
  | .ok r => some (.clientResponse r)
  | .error e => e.response?.map .errorResponse

/-- Sends the answer, if there is one, and ends the session. -/
def respond (client : Link) (before : List SessionState)
    (answer : Except ClusterError ClientResponse) : SessionRecord × Link :=
  match reply? answer with
  | none => (⟨before ++ [.closed], none⟩, client)
  | some m => match client.send m with
    | (.ok (), client) => (⟨before ++ [.responding, .closed], none⟩, client)
    | (.error e, client) => (⟨before ++ [.responding, .closed], some (.unsent e)⟩, client)

/-- Goes on with a session once the round that it asked for is over. There is no record of a session
that is never over. -/
def conclude (client : Link) (outcome : Option RoundOutcome) : Stage → Option SessionRecord × Link
  | .waiting => (none, client)
  | .over closing => (some ⟨[.awaitingTask, .closed], some closing⟩, client)
  | .refused task e =>
    let (record, client) := respond
      (client.advance (client.now + (baseline task.values task.delayMs).slept))
      [.awaitingTask, .computingBaseline, .checkingQuorum] (.error e)
    (some record, client)
  | .dispatching task _ => match outcome with
    | none => (none, client)
    | some o =>
      let (record, client) := respond
        (client.advance (client.now + (baseline task.values task.delayMs).slept + o.elapsed))
        [.awaitingTask, .computingBaseline, .checkingQuorum, .dispatching, .validating]
        (answer task o)
      (some record, client)

/-- A session with one client. -/
def serve (d : Dispatcher) (r : Registry) (client : Link) :
    (Option SessionRecord × Link) × Registry :=
  let (heard, client) := read client
  let stage := enter (r.checkedSnapshot d.minWorkers) heard
  let (outcome, r) := r.dispatch (round d client stage)
  (conclude client outcome stage, r)

end Session

/-- One of many sessions that go on at the same time, after its client was heard. -/
structure Visit where
  /-- Its place among them. -/
  number : Nat
  heard : Option (Except Closing TaskRequest)
  client : Link

namespace Visit

/-- The session with a client, up to what is heard. -/
def ofClient (client : Link) (number : Nat) : Visit :=
  ⟨number, (Session.read client).1, (Session.read client).2⟩

/-- When the baseline is ready, and the quorum is checked. -/
def ready (v : Visit) : Nanos :=
  match v.heard with
  | some (.ok task) => v.client.now + (baseline task.values task.delayMs).slept
  | _ => v.client.now

/-- Goes on with a session among rounds that have begun before. -/
def serve (d : Dispatcher) (o : Overlap) (v : Visit) :
    (Nat × Option SessionRecord × Link) × Overlap :=
  let o := o.pass v.ready
  let stage := Session.enter (quorum d.minWorkers o.snapshot) v.heard
  let (outcome, o) := o.dispatch (Session.round d v.client stage)
  ((v.number, Session.conclude v.client outcome stage), o)

/-- Goes on with sessions one after the other. -/
def serveInTurn (d : Dispatcher) (o : Overlap) :
    List Visit → List (Nat × Option SessionRecord × Link) × Overlap
  | [] => ([], o)
  | v :: rest =>
    let (first, o) := v.serve d o
    let (others, o) := serveInTurn d o rest
    (first :: others, o)

end Visit

namespace Session

/-- Sessions with many clients at once: all are heard first, and go on in the order in which their
baselines are ready. -/
def serveAll (d : Dispatcher) (r : Registry) (clients : List Link) :
    List (Option SessionRecord × Link) × Registry :=
  let visits := clients.zipIdx.map fun (client, number) => Visit.ofClient client number
  let (served, o) := Visit.serveInTurn d (.ofRegistry r) (sortBy Visit.ready visits)
  ((sortBy (·.1) served).map (·.2), o.finish)

end Session

end SumCluster
