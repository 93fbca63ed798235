import Std.Async.DNS
import Std.Async.TCP
import Std.Async.Timer
import SumCluster.Address
import SumCluster.Clock
import SumCluster.Error
import SumCluster.Network.Link

/-!
Connections over real sockets. Bytes that a socket gives are handed to the receiving side of a
connection, which says what they amount to; nothing is decided here. The far end of a real connection
is no rule: what it does is put on its way when it happens.
-/

namespace SumCluster.Service

open Std.Async
open Std.Net (IPAddr IPv4Addr IPv6Addr SocketAddress)
open Network (Event Link)
open Text (natText)
open Wire

/-- How many bytes are read at once. -/
def chunkSize : UInt64 := 8192

/-- Writes a line of the log. -/
def log (line : String) : Async Unit := do IO.eprintln line

/-- Lets some time pass, rounded up to whole milliseconds. -/
def pause (time : Nanos) : Async Unit :=
  if time = 0 then pure ()
  else sleep (Std.Time.Millisecond.Offset.ofNat ((time + Nanos.milli - 1) / Nanos.milli))

/-- Does something, but waits for it no longer than up to a moment. -/
def upTo {α : Type} (moment : Option Nanos) (act : Async α) : Async (Option α) :=
  match moment with
  | none => some <$> act
  | some t => Async.race (some <$> act) (do pause (t - (← IO.monoNanosNow)); return none)

/-- An address as the system takes it. -/
def systemAddress : IpAddress → IPAddr
  | .v4 a b c d => .v4 (.ofParts (.ofNat a) (.ofNat b) (.ofNat c) (.ofNat d))
  | .v6 [a, b, c, d, e, f, g, h] =>
    .v6 (.ofParts (.ofNat a) (.ofNat b) (.ofNat c) (.ofNat d) (.ofNat e) (.ofNat f) (.ofNat g)
      (.ofNat h))
  | .v6 _ => .v6 (.ofParts 0 0 0 0 0 0 0 0)

/-- An address and a port as the system takes them. -/
def socketAddress (port : Nat) : IPAddr → SocketAddress
  | .v4 addr => .v4 ⟨addr, .ofNat port⟩
  | .v6 addr => .v6 ⟨addr, .ofNat port⟩

/-- A socket and the receiving side of the connection on it. -/
structure Channel where
  socket : TCP.Socket.Client
  connection : IO.Ref Connection

namespace Channel

/-- A channel on a fresh socket. -/
def fresh (setting : Nat) (socket : TCP.Socket.Client) : Async Channel := do
  return ⟨socket, ← IO.mkRef (.fresh setting)⟩

/-- The addresses that a host name stands for. -/
def resolve (host : String) (port : Nat) : Async (List SocketAddress) := do
  match IpAddress.read? host.toList with
  | some ip => return [socketAddress port (systemAddress ip)]
  | none => return (← DNS.getAddrInfo host (natText port)).toList.map (socketAddress port)

/-- Connects to the first of some addresses that can be reached. -/
def connectAny : List SocketAddress → Async TCP.Socket.Client
  | [] => throw (IO.userError "could not resolve to any addresses")
  | [addr] => do
    let socket ← TCP.Socket.Client.mk
    socket.connect addr
    return socket
  | addr :: rest => do
    try
      let socket ← TCP.Socket.Client.mk
      socket.connect addr
      return socket
    catch _ => connectAny rest

/-- Connects to a host. -/
def connect (host : String) (port : Nat) : Async (Except ProtocolError Channel) := do
  try
    let socket ← connectAny (← resolve host port)
    socket.noDelay
    return .ok (← fresh Frame.defaultLimit socket)
  catch e => return .error (.io (toString e))

/-- Sends one frame. -/
def sendFrame (c : Channel) (frame : Bytes) : Async (Except ProtocolError Unit) := do
  try
    c.socket.send ⟨frame.toArray⟩
    return .ok ()
  catch e => return .error (.io (toString e))

/-- Sends some frames one after the other. -/
def sendFrames (c : Channel) : List Bytes → Async (Except ProtocolError Unit)
  | [] => return .ok ()
  | frame :: rest => do
    match ← c.sendFrame frame with
    | .error e => return .error e
    | .ok () => c.sendFrames rest

/-- Sends one message. -/
def send (c : Channel) (m : Message) : Async (Except ProtocolError Unit) := do
  match Frame.encode (← c.connection.get).decoder.limit m with
  | .error e => return .error e
  | .ok frame => c.sendFrame frame

/-- The next bytes from the socket; none at the end of the stream. -/
def read (c : Channel) : Async (Except ProtocolError (Option Bytes)) := do
  try
    return .ok ((← c.socket.recv? chunkSize).map (·.data.toList))
  catch e => return .error (.io (toString e))

/-- Waits for the next message. -/
partial def recv (c : Channel) : Async Frame.Outcome := do
  let (outcome, connection) := (← c.connection.get).recv
  c.connection.set connection
  match outcome with
  | some outcome => return outcome
  | none => match ← c.read with
    | .error e => return .error e
    | .ok (some bytes) =>
      c.connection.set (connection.arrive bytes)
      c.recv
    | .ok none =>
      c.connection.set connection.close
      c.recv

/-- What happens next on the socket; the far end of a socket that fails is gone. -/
def next (c : Channel) : Async Event := do
  match ← c.read with
  | .ok (some bytes) => return .bytes bytes
  | .ok none => return .finish
  | .error _ => return .hangUp

/-- The connection as far as it has been read by now. -/
def link (c : Channel) : Async Link := do
  return ⟨← c.connection.get, .silent, [], [], false, ← IO.monoNanosNow⟩

/-- Ends the writing side. -/
def close (c : Channel) : Async Unit := do
  try c.socket.shutdown catch _ => pure ()

end Channel

end SumCluster.Service
