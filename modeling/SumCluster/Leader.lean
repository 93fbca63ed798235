import SumCluster.Config
import SumCluster.Session
import SumCluster.Text.Blank

/-!
The leader. It listens for workers and for clients. A worker's connection is accepted first and its
handshake read whenever it comes; the worker is registered under the id that it gives, unless that
is blank. Shutting down empties the registry and ends the listening; connections accepted before
that go on by themselves.
-/

namespace SumCluster

open Network (Link Heard Event)
open Text (isBlankText)
open Wire (Message ProtocolError)

/-- Why a worker is not registered. -/
inductive Refusal where
  /-- What came first was not a handshake. -/
  | noHandshake (e : ProtocolError)
  /-- Nothing came before the worker ended its stream. -/
  | left
  /-- The id is nothing but white space. -/
  | blankId
  deriving DecidableEq, Repr

/-- The note that is kept of it. -/
def Refusal.note : Refusal → String
  | noHandshake e => "Rejecting worker: " ++ e.message
  | left => "Worker closed before handshake"
  | blankId => "Rejecting worker with empty id"

namespace Admission

/-- What the first answer on a worker's connection means: the id to register, or a refusal. -/
def judge : Except ProtocolError (Option Message) → Except Refusal String
  | .error e => .error (.noHandshake e)
  | .ok none => .error .left
  | .ok (some m) => match m.asHandshake with
    | .error e => .error (.noHandshake e)
    | .ok h => if isBlankText h.workerId.toList then .error .blankId else .ok h.workerId

/-- Waits for the handshake; there is no decision while it may still come. -/
def read (worker : Link) : Option (Except Refusal String) × Link :=
  match worker.recv none with
  | (.answer outcome, worker) => (some (judge outcome), worker)
  | (_, worker) => (none, worker)

/-- Reads the handshake on a fresh connection and registers the worker. -/
def register (r : Registry) (worker : Link) :
    Option (Except Refusal HandleId) × Registry × Link :=
  match read worker with
  | (some (.ok id), worker) =>
    let (h, r) := r.register id worker
    (some (.ok h), r, worker)
  | (some (.error refusal), worker) => (some (.error refusal), r, worker)
  | (none, worker) => (none, r, worker)

end Admission

/-- Which address a leader could not listen on. -/
inductive Taken where
  | client
  | worker
  deriving DecidableEq, Repr

/-- A leader. -/
structure Leader where
  config : LeaderConfig
  registry : Registry
  /-- The accepted connections of workers whose handshake has not come. -/
  pending : List Link
  /-- It accepts connections. -/
  listening : Bool
  /-- How late it is. -/
  clock : Nanos

namespace Leader

/-- The failure to listen on an address. -/
def bindError (c : LeaderConfig) (cause : String) : Taken → ClusterError
  | .client => .io ("binding client port " ++ c.clientAddr.text) cause
  | .worker => .io ("binding worker port " ++ c.workerAddr.text) cause

/-- Checks the settings and listens on both addresses, the clients' first; `free` says which
addresses can be listened on, or why not. -/
def bind (c : LeaderConfig) (free : Endpoint → Except String Unit) : Except ClusterError Leader :=
  match c.validate with
  | .error e => .error e.toError
  | .ok () => match free c.clientAddr with
    | .error cause => .error (bindError c cause .client)
    | .ok () => match free c.workerAddr with
      | .error cause => .error (bindError c cause .worker)
      | .ok () => .ok ⟨c, .empty, [], true, 0⟩

/-- The quorum and the time limit of its rounds. -/
def dispatcher (l : Leader) : Dispatcher := ⟨l.config.minWorkers, l.config.dispatchTimeout⟩

/-- A connection is accepted. -/
def accept (l : Leader) (worker : Link) : Leader :=
  if l.listening then { l with pending := l.pending ++ [worker] } else l

/-- Something arrives on an accepted connection. -/
def deliver (l : Leader) (place : Nat) (e : Event) : Leader :=
  { l with pending := l.pending.modify place (·.deliver e) }

/-- The handshake on an accepted connection is read, if it has come. -/
def enroll (l : Leader) (place : Nat) : Option (Except Refusal HandleId) × Leader :=
  match l.pending[place]? with
  | none => (none, l)
  | some worker => match Admission.register l.registry worker with
    | (none, registry, worker) =>
      (none, { l with registry, pending := l.pending.set place worker })
    | (decision, registry, _) =>
      (decision, { l with registry, pending := l.pending.eraseIdx place })

/-- Serves some clients at once. -/
def serveAll (l : Leader) (clients : List Link) : List (Option SessionRecord × Link) × Leader :=
  let (sessions, registry) := Session.serveAll l.dispatcher l.registry clients
  (sessions, { l with
    registry, clock := sessions.foldl (fun t (_, client) => max t client.now) l.clock })

/-- Serves one client. -/
def serve (l : Leader) (client : Link) : (Option SessionRecord × Link) × Leader :=
  let (session, registry) := Session.serve l.dispatcher l.registry client
  (session, { l with registry, clock := max l.clock session.2.now })

/-- Ends the listening and takes every worker out. -/
def shutDown (l : Leader) : Leader :=
  { l with registry := l.registry.clear, listening := false }

end Leader

end SumCluster
