import SumCluster.Client
import SumCluster.Leader
import SumCluster.Network.Script
import SumCluster.Worker

/-!
A whole cluster: a leader and the nodes that have connected to it, on one virtual clock. Nodes are
numbered in the order in which they connect. A node is a worker of this library, or a far end that
writes what it likes and then follows a script.
-/

namespace SumCluster

open Network (Action Arrival Event Link Peer)
open Wire

/-- What a node is. -/
inductive NodeKind where
  /-- A worker of this library. -/
  | worker (workerId : String) (mode : ComputeMode)
  /-- A scripted far end. -/
  | scripted

/-- Where the leader holds the connection of a node. -/
inductive NodePlace where
  /-- Under a handle. -/
  | enrolled (h : HandleId)
  /-- Among the accepted connections, still without a handshake. -/
  | accepted (place : Nat)
  /-- Nowhere any more. -/
  | dropped

/-- A node of a cluster. -/
structure Node where
  kind : NodeKind
  place : NodePlace

/-- A leader and its nodes. -/
structure Cluster where
  leader : Leader
  nodes : List Node

/-- What a client of the cluster sees of its task, and what its session went through. -/
structure Submission where
  answer : Option (Except ClusterError TaskOutcome)
  record : Option SessionRecord

namespace Cluster

/-- A cluster without nodes, if its leader can start. -/
def start (c : LeaderConfig) : Except ClusterError Cluster :=
  (Leader.bind c fun _ => .ok ()).map fun leader => ⟨leader, []⟩

/-- How late it is. -/
def clock (c : Cluster) : Nanos := max c.leader.clock c.leader.registry.latest

/-- The leader's end of a new connection. -/
def newLink (c : Cluster) (peer : Peer) (events : List Event) : Link :=
  .fresh c.leader.config.maxFrameLength peer (events.map fun e => ⟨c.clock, e⟩) c.clock

/-- A node connects, and the leader reads its handshake if it has come. -/
def join (c : Cluster) (kind : NodeKind) (link : Link) :
    Option (Except Refusal HandleId) × Cluster :=
  let place := c.leader.pending.length
  match (c.leader.accept link).enroll place with
  | (none, leader) => (none, ⟨leader, c.nodes ++ [⟨kind, .accepted place⟩]⟩)
  | (some (.ok h), leader) => (some (.ok h), ⟨leader, c.nodes ++ [⟨kind, .enrolled h⟩]⟩)
  | (some (.error refusal), leader) =>
    (some (.error refusal), ⟨leader, c.nodes ++ [⟨kind, .dropped⟩]⟩)

/-- A worker of this library connects. -/
def joinWorker (c : Cluster) (workerId : String) (mode : ComputeMode) :
    Option (Except Refusal HandleId) × Cluster :=
  let first := match Worker.connect workerId mode with
    | .ok (frame, _) => [Event.bytes frame]
    | .error _ => [.hangUp]
  c.join (.worker workerId mode) (c.newLink (Worker.peer workerId mode) first)

/-- A scripted far end connects, writes some bytes and perhaps ends its stream. -/
def joinScripted (c : Cluster) (workerId : String) (script : List Action) (bytes : Bytes)
    (ends : Bool) : Option (Except Refusal HandleId) × Cluster :=
  c.join .scripted (c.newLink (Network.Script.worker workerId script)
    (.bytes bytes :: if ends then [.finish] else []))

/-- Clients that write some bytes each, and perhaps end their streams, are served at once. -/
def serveAll (c : Cluster) (clients : List (Bytes × Bool)) :
    List (Option SessionRecord × Link) × Cluster :=
  let links := clients.map fun (bytes, ends) =>
    c.newLink .silent (.bytes bytes :: if ends then [.finish] else [])
  let (sessions, leader) := c.leader.serveAll links
  (sessions, { c with leader })

/-- What a client makes of what the leader writes back before it ends the connection. -/
def answer (task : TaskRequest) (reply : Bytes) : Option (Except ClusterError TaskOutcome) :=
  (Client.submit (.fresh Frame.defaultLimit (Network.Script.reply reply .hangUp) [] 0) task).1

/-- The bytes that a client sends for a task; none if the task is too long. -/
def request (task : TaskRequest) : Bytes :=
  match Frame.encode (Frame.limitOf Frame.defaultLimit) (.taskRequest task) with
  | .ok frame => frame
  | .error _ => []

/-- Clients submit a task each, at once; one whose task is too long leaves without a word. -/
def submitAll (c : Cluster) (tasks : List TaskRequest) : List Submission × Cluster :=
  let (sessions, c) := c.serveAll (tasks.map fun task => (request task, (request task).isEmpty))
  (List.zipWith (fun task (record, client) => ⟨answer task client.taken.flatten, record⟩)
    tasks sessions, c)

/-- The connection of a node breaks. -/
def killNode (c : Cluster) (number : Nat) : Cluster :=
  match c.nodes[number]? with
  | some ⟨_, .enrolled h⟩ =>
    { c with leader := { c.leader with registry := c.leader.registry.cut h c.clock } }
  | some ⟨_, .accepted place⟩ => { c with leader := c.leader.deliver place .hangUp }
  | _ => c

/-- A worker is taken out of the registry. -/
def remove (c : Cluster) (id : String) : Option HandleId × Cluster :=
  let (h, registry) := c.leader.registry.remove id
  (h, { c with leader := { c.leader with registry } })

/-- The leader shuts down. -/
def shutDown (c : Cluster) : Cluster := { c with leader := c.leader.shutDown }

/-- The leader's end of the connection of a node. -/
def link? (c : Cluster) (n : Node) : Option Link :=
  match n.place with
  | .enrolled h => c.leader.registry.handles[h]?.map (·.link)
  | .accepted place => c.leader.pending[place]?
  | .dropped => none

/-- The messages that a node has taken. -/
def seen (c : Cluster) (n : Node) : List Message :=
  match c.link? n with
  | some link => Network.Script.seen link
  | none => []

/-- How the run of a worker of this library ends once the leader has ended the connection: one that
still has a result to send cannot do so. -/
def ending (c : Cluster) (n : Node) (workerId : String) (mode : ComputeMode) :
    Except ClusterError Unit :=
  match c.link? n with
  | none => .ok ()
  | some link =>
    if link.coming ≠ [] then .error (.protocol .brokenPipe)
    else match (Worker.run workerId mode link.taken).ended with
      | some (.error e) => .error (.protocol e)
      | _ => .ok ()

end Cluster

end SumCluster
