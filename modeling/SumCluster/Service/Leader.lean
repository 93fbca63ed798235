import Std.Async.Signal
import SumCluster.Cli.Leader
import SumCluster.Service.Channel
import SumCluster.Turn

/-!
The leader program at work. Who is registered, on which connection, and who can be trusted is kept in
the registry; beside it stands the line to every worker in it. Calls wait on the line for their turn,
and what they come to is worked out on what has come from the worker; nothing is decided here but
which of the calls that wait goes first.
-/

namespace SumCluster.Service.Leader

open Cli (Run)
open Network (Link)
open Std.Async

/-- The channel of a worker, and the promise that the last in line keeps when it is done. -/
structure Line where
  channel : Channel
  last : IO.Ref (IO.Promise Unit)

namespace Line

/-- A line that nobody uses yet. -/
def fresh (channel : Channel) : Async Line := do
  let turn ← IO.Promise.new
  turn.resolve ()
  return ⟨channel, ← IO.mkRef turn⟩

/-- Does something when its turn has come. -/
def inTurn {α : Type} (l : Line) (act : Async α) : Async α := do
  let mine ← IO.Promise.new
  let before ← l.last.swap mine
  await before
  try act finally mine.resolve ()

end Line

/-- The registry, and the lines to the workers in it. -/
structure Floor where
  registry : Registry
  lines : List (HandleId × Line)

namespace Floor

/-- Nobody has registered yet. -/
def empty : Floor := ⟨.empty, []⟩

/-- Registers a worker on its connection. -/
def register (f : Floor) (id : String) (link : Link) (line : Line) : Floor :=
  let (h, registry) := f.registry.register id link
  ⟨registry, (h, line) :: f.lines⟩

/-- Makes the call of an errand at once. -/
def call (f : Floor) (e : Errand) : Option Result × Floor :=
  let d := Dispatch.step [e] ⟨f.registry, [none]⟩ (.call 0)
  (d.results.head?.join, { f with registry := d.registry })

/-- A call gives the connection back. -/
def giveBack (f : Floor) (t : Turn) : Floor := { f with registry := f.registry.giveBack t }

/-- Settles the call of an errand. -/
def settle (f : Floor) (e : Errand) (result : Option Result) : Floor :=
  { f with registry := (Dispatch.step [e] ⟨f.registry, [result]⟩ (.settle 0)).registry }

/-- Takes everybody out. -/
def clear (f : Floor) : Floor := { f with registry := f.registry.clear }

/-- Parts with the lines to workers that are not trusted any more. -/
def sweep (f : Floor) : List Line × Floor :=
  let (kept, left) := f.lines.partition fun (h, _) => f.registry.isAlive h
  (left.map (·.2), { f with lines := kept })

end Floor

/-- A leader at work. -/
structure Site where
  config : LeaderConfig
  floor : IO.Ref Floor

namespace Site

/-- Changes the registry, and closes the lines that are no longer needed when nobody uses them. -/
def change (s : Site) (f : Floor → Floor) : Async Unit := do
  let left ← s.floor.modifyGet fun floor => (f floor).sweep
  for line in left do background (line.inTurn line.channel.close)

/-- Waits for the end of a call. When the time is up at which it ends if nothing more comes, it has
ended. -/
partial def attend (s : Site) (channel : Channel) (t : Turn) (now : Nanos) :
    Async (Option Result) := do
  match t.ended? now with
  | some result =>
    s.floor.modify (·.giveBack t)
    return some result
  | none =>
    let finish := t.result?.map (·.finish)
    match ← upTo finish channel.next with
    | some event =>
      let now ← IO.monoNanosNow
      s.attend channel (t.arrive ⟨now, event⟩) now
    | none => s.attend channel t (finish.getD now)

/-- A call from its turn on. Its frames are sent at once; a socket that does not take them is one
whose far end is gone. -/
def converse (s : Site) (e : Errand) (channel : Channel) : Async (Option Result) := do
  match (← s.floor.get).registry.turn? e with
  | none => return none
  | some t =>
    let finish := t.result?.map (·.finish)
    let sent ← upTo finish (channel.sendFrames t.frames)
    let now ← IO.monoNanosNow
    match sent with
    | some (.ok ()) => s.attend channel t now
    | some (.error _) => s.attend channel (t.arrive ⟨now, .hangUp⟩) now
    | none => s.attend channel t (finish.getD now)

/-- One call of a round, and its settlement. A worker whose line is given up is not trusted, so the
call has not to wait. -/
def call (s : Site) (e : Errand) : Async (Option Result) := do
  let result ← match (← s.floor.get).lines.lookup e.handle with
    | some line => line.inTurn (s.converse e line.channel)
    | none => s.floor.modifyGet (·.call e)
  s.change (·.settle e result)
  return result

/-- A whole round. -/
def dispatch (s : Site) (round : Round) : Async (Option RoundOutcome) := do
  let errands := round.errands 0
  let results ← Async.concurrentlyAll (errands.map s.call).toArray
  let registry := (← s.floor.get).registry
  return RoundOutcome.ofDispatch ⟨registry, results.toList⟩ errands round 0

/-- Serves one client. The quorum is checked when the baseline is ready, which may be later than it
should be. -/
def serveClient (s : Site) (socket : TCP.Socket.Client) : Async Unit := do
  let channel ← Channel.fresh s.config.maxFrameLength socket
  let heard := some (Session.judge (← channel.recv))
  let visit : Visit := ⟨0, heard, ← channel.link⟩
  pause (visit.ready - (← IO.monoNanosNow))
  let late := (← IO.monoNanosNow) - visit.ready
  let client := visit.client.advance (visit.client.now + late)
  let registry := (← s.floor.get).registry
  let stage := Session.enter (registry.checkedSnapshot s.config.minWorkers) heard
  let outcome ← s.dispatch
    (Session.round ⟨s.config.minWorkers, s.config.dispatchTimeout⟩ client stage)
  let (record, client) := Session.conclude client outcome stage
  for closing in (record.bind (·.closing)).toList do log closing.note
  match ← channel.sendFrames client.taken with
  | .ok () => pure ()
  | .error e => log (Closing.unsent e).note
  channel.close

/-- Reads the handshake on a worker's connection and registers the worker. -/
def serveWorker (s : Site) (socket : TCP.Socket.Client) : Async Unit := do
  let channel ← Channel.fresh s.config.maxFrameLength socket
  match Admission.judge (← channel.recv) with
  | .error refusal =>
    log refusal.note
    channel.close
  | .ok id =>
    let line ← Line.fresh channel
    let link ← channel.link
    s.change (·.register id link line)
    log ("Registered worker " ++ id)

end Site

/-- Accepts connections for ever. -/
partial def acceptAll (server : TCP.Socket.Server) (serve : TCP.Socket.Client → Async Unit) :
    Async Unit := do
  try
    let socket ← server.accept
    socket.noDelay
    background (serve socket)
  catch e => log ("Failed to accept connection: " ++ toString e)
  acceptAll server serve

/-- Listens on an address. -/
def listen (e : Endpoint) : Async (Except String TCP.Socket.Server) := do
  try
    let server ← TCP.Socket.Server.mk
    server.bind (socketAddress e.port (systemAddress e.host))
    server.listen 1024
    return .ok server
  catch e => return .error (toString e)

/-- Serves until the program is interrupted. -/
def serve (c : LeaderConfig) (clients workers : TCP.Socket.Server) : Async Run := do
  let site : Site := ⟨c, ← IO.mkRef .empty⟩
  background (acceptAll workers site.serveWorker)
  background (acceptAll clients site.serveClient)
  log ("Leader listening for clients on " ++ c.clientAddr.text ++ " and workers on " ++
    c.workerAddr.text)
  let interrupt ← Signal.Waiter.mk .sigint false
  discard (await (← interrupt.wait))
  site.change (·.clear)
  return Cli.Leader.interrupted

/-- The whole program. -/
def run (words : List String) : Async Run := do
  match Cli.Leader.read words with
  | .error run => return run
  | .ok c => match c.validate with
    | .error e => return Cli.Leader.failed e.toError
    | .ok () => match ← listen c.clientAddr with
      | .error cause => return Cli.Leader.failed (SumCluster.Leader.bindError c cause .client)
      | .ok clients => match ← listen c.workerAddr with
        | .error cause => return Cli.Leader.failed (SumCluster.Leader.bindError c cause .worker)
        | .ok workers => serve c clients workers

end SumCluster.Service.Leader
