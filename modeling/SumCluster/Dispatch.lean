import SumCluster.Partition
import SumCluster.Registry
import SumCluster.Round

/-!
Rounds. A round cuts a task into shares, one for each worker of a snapshot, and calls all the
workers at once; share `i` goes to the `i`-th of them, and with fewer values than workers the last
ones sit the round out. A worker that fails is taken out of the registry, and its share is missing
from the outcome. Several rounds may run at the same time. The calls then meet on the connections in
some order, which is given as a list of moves; the outcome is put together by share number when all
moves are made.
-/

namespace SumCluster

open Wire (SubtaskRequest TaskRequest)

/-- A task, the workers that it goes to, when, and how long each of them may take. -/
structure Round where
  task : TaskRequest
  snapshot : List HandleId
  start : Nanos
  limit : Option Nanos
  deriving DecidableEq, Repr

/-- One call of a round. -/
structure Errand where
  /-- The number of the round. -/
  round : Nat
  /-- The number of the share. -/
  index : Nat
  handle : HandleId
  request : SubtaskRequest
  start : Nanos
  limit : Option Nanos
  deriving DecidableEq, Repr

/-- The call that hands one share to one worker. -/
def Round.errand (r : Round) (number : Nat) (p : Partition) (h : HandleId) : Errand :=
  ⟨number, p.index, h, ⟨p.slice r.task.values, r.task.delayMs⟩, r.start, r.limit⟩

/-- The calls of a round: each share with the worker at its place. -/
def Round.errands (r : Round) (number : Nat) : List Errand :=
  List.zipWith (r.errand number) (partition r.task.values.length r.snapshot.length) r.snapshot

/-- How a call ended and when. -/
structure Result where
  reply : Reply
  finish : Nanos

/-- One move of rounds that run at the same time. -/
inductive Move where
  /-- The call of an errand gets the connection and ends. -/
  | call (errand : Nat)
  /-- If the call of an errand has failed, its worker is taken out. -/
  | settle (errand : Nat)
  deriving DecidableEq, Repr

/-- Rounds on their way: the registry, and what has come of each errand so far. -/
structure Dispatch where
  registry : Registry
  results : List (Option Result)

namespace Dispatch

/-- Nothing has been called yet. -/
def begin (r : Registry) (errands : List Errand) : Dispatch := ⟨r, errands.map fun _ => none⟩

/-- Makes one move. -/
def step (errands : List Errand) (d : Dispatch) : Move → Dispatch
  | .call i => match errands[i]? with
    | some e =>
      let (reply, registry) := d.registry.call e.handle e.start e.request e.limit
      ⟨registry, d.results.set i (reply.map fun r => ⟨r, registry.clock e.handle⟩)⟩
    | none => d
  | .settle i => match errands[i]?, d.results[i]? with
    | some e, some (some ⟨.error _, _⟩) =>
      { d with registry := (d.registry.deregister e.handle).2 }
    | _, _ => d

/-- Makes moves one after the other. -/
def run (errands : List Errand) (moves : List Move) (d : Dispatch) : Dispatch :=
  moves.foldl (step errands) d

/-- The order in which each call is made and settled before the next one. -/
def inTurn (count : Nat) : List Move := (List.range count).flatMap fun i => [.call i, .settle i]

end Dispatch

namespace RoundOutcome

/-- Puts one errand's result behind those of the shares before it. -/
def add (r : Registry) (start : Nanos) (o : RoundOutcome) (e : Errand) (result : Result) :
    RoundOutcome :=
  let elapsed := max o.elapsed (result.finish - start)
  match result.reply with
  | .ok answer =>
    { o with partials := o.partials ++ [⟨e.index, r.workerId e.handle, answer.sum⟩], elapsed }
  | .error _ => { o with failed := o.failed ++ [r.workerId e.handle], elapsed }

/-- The outcome of a round from its errands and their results; none while a result is missing. -/
def collect (r : Registry) (start : Nanos) (o : RoundOutcome) :
    List (Errand × Option Result) → Option RoundOutcome
  | [] => some o
  | (_, none) :: _ => none
  | (e, some result) :: rest => collect r start (o.add r start e result) rest

/-- The outcome of the round with some number, when many rounds ran at the same time. -/
def ofDispatch (d : Dispatch) (errands : List Errand) (round : Round) (number : Nat) :
    Option RoundOutcome :=
  collect d.registry round.start ⟨[], [], 0⟩
    ((errands.zip d.results).filter fun (e, _) => e.round = number)

end RoundOutcome

/-- A snapshot, if it has enough workers for a round. -/
def quorum (minWorkers : Nat) (snapshot : List HandleId) : Except ClusterError (List HandleId) :=
  if snapshot.length < minWorkers then .error (.insufficientWorkers snapshot.length minWorkers)
  else .ok snapshot

namespace Registry

/-- The calls of many rounds, round by round. -/
def errands (rounds : List Round) : List Errand :=
  rounds.zipIdx.flatMap fun (round, number) => round.errands number

/-- Runs rounds at the same time, the moves of their calls in a given order. No outcome means that
the round never ends. -/
def dispatchWith (r : Registry) (moves : List Move) (rounds : List Round) :
    List (Option RoundOutcome) × Registry :=
  let d := (Dispatch.begin r (errands rounds)).run (errands rounds) moves
  (rounds.zipIdx.map fun (round, number) =>
    RoundOutcome.ofDispatch d (errands rounds) round number, d.registry)

/-- Runs rounds at the same time, their calls in the order in which the rounds are listed. -/
def dispatchAll (r : Registry) (rounds : List Round) : List (Option RoundOutcome) × Registry :=
  r.dispatchWith (Dispatch.inTurn (errands rounds).length) rounds

/-- Runs one round. -/
def dispatch (r : Registry) (round : Round) : Option RoundOutcome × Registry :=
  let (outcomes, r) := r.dispatchAll [round]
  (outcomes.head?.join, r)

/-- Puts the outcomes of the rounds that ran back among the errors of those that could not start. -/
def mergeOutcomes : List (Except ClusterError Round) → List (Option RoundOutcome) →
    List (Except ClusterError (Option RoundOutcome))
  | .error e :: rounds, outcomes => .error e :: mergeOutcomes rounds outcomes
  | .ok _ :: rounds, outcome :: outcomes => .ok outcome :: mergeOutcomes rounds outcomes
  | _, _ => []

/-- Runs those of some rounds that can start at the same time. -/
def dispatchReady (r : Registry) (rounds : List (Except ClusterError Round)) :
    List (Except ClusterError (Option RoundOutcome)) × Registry :=
  let (outcomes, r) := r.dispatchAll (rounds.filterMap Except.toOption)
  (mergeOutcomes rounds outcomes, r)

/-- The snapshot for a round, if it has enough workers. -/
def checkedSnapshot (r : Registry) (minWorkers : Nat) : Except ClusterError (List HandleId) :=
  quorum minWorkers r.snapshot

end Registry

/-- Hands out the tasks of one leader: the quorum and the time that each call may take. -/
structure Dispatcher where
  minWorkers : Nat
  limit : Option Nanos
  deriving DecidableEq, Repr

namespace Dispatcher

/-- Quorum check and round. -/
def runRound (d : Dispatcher) (r : Registry) (start : Nanos) (task : TaskRequest) :
    Except ClusterError (Option RoundOutcome) × Registry :=
  match r.checkedSnapshot d.minWorkers with
  | .error e => (.error e, r)
  | .ok snapshot =>
    let (outcome, r) := r.dispatch ⟨task, snapshot, start, d.limit⟩
    (.ok outcome, r)

end Dispatcher

end SumCluster
