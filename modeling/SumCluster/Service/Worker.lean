import SumCluster.Cli.Worker
import SumCluster.Service.Channel

/-!
The worker program at work: it registers, and then hands the worker what comes in and sends what the
worker has to say, each result as late as the worker's computing makes it.
-/

namespace SumCluster.Service.Worker

open Cli (Run)
open Std.Async
open Wire (Bytes ProtocolError)

/-- Sends results, each after the time that was spent on it. -/
def sendResults (channel : Channel) (busy : Nanos) :
    List (Nanos × Bytes) → Async (Except ProtocolError Unit)
  | [] => return .ok ()
  | (done, frame) :: rest => do
    pause (done - busy)
    match ← channel.sendFrame frame with
    | .error e => return .error e
    | .ok () => sendResults channel done rest

/-- Works until there is nothing more to do. -/
partial def work (channel : Channel) (w : SumCluster.Worker) :
    Async (Except ProtocolError Unit) := do
  match ← channel.read with
  | .error e => return .error e
  | .ok chunk =>
    let next := match chunk with
      | some bytes => w.feed bytes
      | none => w.finish
    match ← sendResults channel w.busy (next.sent.drop w.sent.length) with
    | .error e => return .error e
    | .ok () => match next.ended with
      | some outcome => return outcome
      | none => work channel next

/-- Connects and sends the handshake. -/
def register (a : Cli.Worker.Arguments) (c : WorkerConfig) :
    Async (Except ProtocolError (Channel × SumCluster.Worker)) := do
  match ← Channel.connect a.host a.port with
  | .error e => return .error e
  | .ok channel => match SumCluster.Worker.connect c.workerId c.mode with
    | .error e => return .error e
    | .ok (frame, worker) => return (← channel.sendFrame frame).map fun _ => (channel, worker)

/-- The whole program. -/
def run (words : List String) : Async Run := do
  match Cli.Worker.read words with
  | .error run => return run
  | .ok a =>
    let c := Cli.Worker.config a (← IO.rand 0 ((1 <<< 122) - 1))
    match ← register a c with
    | .error e => return Cli.Worker.unregistered (.protocol e)
    | .ok (channel, worker) =>
      log ("Registered with leader as " ++ c.workerId)
      return Cli.Worker.conclude ((← work channel worker).mapError .protocol)

end SumCluster.Service.Worker
