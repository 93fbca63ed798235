import SumCluster.Clock
import SumCluster.Wire.Connection

/-!
Two-way connections on a virtual clock. The far end is a rule that says, for every frame it takes,
what it sets off: bytes that arrive after some time, the end of its stream, its disappearance. What
arrives keeps the order in which it was sent. Waiting moves the clock of the connection on to the
next arrival, up to a deadline if there is one.
-/

namespace SumCluster.Network

open Wire

/-- Something that reaches this end of a connection. -/
inductive Event where
  /-- Some bytes come in. -/
  | bytes (chunk : Bytes)
  /-- The far end ends its stream and goes on reading. -/
  | finish
  /-- The far end is gone, and takes nothing more. -/
  | hangUp
  deriving DecidableEq, Repr

/-- An event and when it happens. -/
structure Arrival where
  due : Nanos
  event : Event
  deriving DecidableEq, Repr

/-- A far end: given all the frames it has taken, what the last of them sets off, and how long after
it took it. -/
structure Peer where
  react : List Bytes → List Arrival

/-- A far end that never does anything. -/
def Peer.silent : Peer := ⟨fun _ => []⟩

/-- This end of a two-way connection. -/
structure Link where
  /-- The receiving side; it also knows the frame limit, which holds for sending too. -/
  connection : Connection
  /-- Who is at the other end. -/
  peer : Peer
  /-- The frames that the far end has taken, oldest first. -/
  taken : List Bytes
  /-- What is still on its way, in order. -/
  coming : List Arrival
  /-- The far end is gone. -/
  gone : Bool
  /-- How late it is here. -/
  now : Nanos

/-- What waiting for a message comes to. -/
inductive Heard where
  /-- The connection has an answer. -/
  | answer (outcome : Frame.Outcome)
  /-- The deadline passed. -/
  | expired
  /-- There is no deadline, and nothing will ever come. -/
  | silence

namespace Link

/-- A new connection to a far end that has already set something off. -/
def fresh (setting : Nat) (peer : Peer) (coming : List Arrival) (now : Nanos) : Link :=
  ⟨.fresh setting, peer, [], coming, false, now⟩

/-- The longest body that may be sent or received. -/
def limit (l : Link) : Nat := l.connection.decoder.limit

/-- Moves the clock on to a moment, never back. -/
def advance (l : Link) (t : Nanos) : Link := { l with now := max l.now t }

/-- Something arrives. -/
def deliver (l : Link) : Event → Link
  | .bytes chunk => { l with connection := l.connection.arrive chunk }
  | .finish => { l with connection := l.connection.close }
  | .hangUp => { l with connection := l.connection.close, gone := true }

/-- Something more is on its way, behind all that is already. -/
def expect (l : Link) (a : Arrival) : Link := { l with coming := l.coming ++ [a] }

/-- Forgets which frames the far end has taken. -/
def forget (l : Link) : Link := { l with taken := [] }

/-- Delivers what is due by now, from a list of what is on its way. -/
def settleFrom (l : Link) : List Arrival → Link
  | [] => { l with coming := [] }
  | a :: rest => if a.due ≤ l.now then (l.deliver a.event).settleFrom rest
    else { l with coming := a :: rest }

/-- Delivers what is due by now. -/
def settle (l : Link) : Link := l.settleFrom l.coming

/-- Hands a frame to the far end and sets off what it does then. -/
def hand (l : Link) (frame : Bytes) : Link :=
  let taken := l.taken ++ [frame]
  { l with
    taken := taken
    coming := l.coming ++ (l.peer.react taken).map fun a => { a with due := l.now + a.due } }

/-- Sends one message, which fails if it is too long or the far end is gone. -/
def send (l : Link) (m : Message) : Except ProtocolError Unit × Link :=
  match Frame.encode l.limit m with
  | .error e => (.error e, l)
  | .ok frame =>
    if l.settle.gone then (.error .brokenPipe, l.settle) else (.ok (), l.settle.hand frame)

/-- Waits for a message while things arrive from a list of what is on its way. -/
def hear (deadline : Option Nanos) (l : Link) : List Arrival → Heard × Link
  | [] => match l.connection.recv with
    | (some outcome, c) => (.answer outcome, { l with connection := c, coming := [] })
    | (none, c) => match deadline with
      | some t => (.expired, { l with connection := c, coming := [] }.advance t)
      | none => (.silence, { l with connection := c, coming := [] })
  | a :: rest => match l.connection.recv with
    | (some outcome, c) => (.answer outcome, { l with connection := c, coming := a :: rest })
    | (none, c) =>
      match deadline with
      | some t =>
        if t < a.due then (.expired, { l with connection := c, coming := a :: rest }.advance t)
        else hear deadline (({ l with connection := c }.advance a.due).deliver a.event) rest
      | none => hear deadline (({ l with connection := c }.advance a.due).deliver a.event) rest

/-- Waits for a message until the deadline, or for as long as it takes. -/
def recv (l : Link) (deadline : Option Nanos) : Heard × Link :=
  hear deadline l l.coming

/-- The far end disappears at a moment; what it had not sent by then never comes. -/
def cut (l : Link) (t : Nanos) : Link :=
  { (l.advance t).settle with coming := [] }.deliver .hangUp

end Link

end SumCluster.Network
