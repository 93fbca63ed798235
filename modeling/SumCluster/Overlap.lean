import SumCluster.Dispatch

/-!
Rounds that begin at different moments while others are on their way. A worker is trusted until the
moment when a call on it fails, so every round that begins by then still counts it, and it is taken
out before a round that begins later. The calls of a round that begins earlier get the connections
first.
-/

namespace SumCluster

/-- A call that fails: the handle, and when. -/
structure FailedCall where
  handle : HandleId
  time : Nanos
  deriving DecidableEq, Repr

/-- A registry while rounds are on their way, with the failures whose workers are not taken out
yet. -/
structure Overlap where
  registry : Registry
  ahead : List FailedCall

namespace Dispatch

/-- The calls of so many errands in turn; nobody is taken out. -/
def calls (count : Nat) : List Move := (List.range count).map .call

/-- The failures among the results of some errands. -/
def failures (errands : List Errand) (d : Dispatch) : List FailedCall :=
  (errands.zip d.results).filterMap fun
    | (e, some ⟨.error _, finish⟩) => some ⟨e.handle, finish⟩
    | _ => none

end Dispatch

namespace Overlap

/-- No round has begun. -/
def ofRegistry (r : Registry) : Overlap := ⟨r, []⟩

/-- Takes out the workers of some failures. -/
def expel (r : Registry) (failures : List FailedCall) : Registry :=
  failures.foldl (fun r f => (r.deregister f.handle).2) r

/-- Time passes up to a moment: the workers that failed before it are taken out. -/
def pass (o : Overlap) (t : Nanos) : Overlap :=
  ⟨expel o.registry (o.ahead.filter (·.time < t)), o.ahead.filter (t ≤ ·.time)⟩

/-- Every round is over. -/
def finish (o : Overlap) : Registry := expel o.registry o.ahead

/-- Whether a handle is still trusted. -/
def isAlive (o : Overlap) (h : HandleId) : Bool :=
  o.registry.isAlive h || o.ahead.any (·.handle = h)

/-- The registered handles that are still trusted, in order. -/
def snapshot (o : Overlap) : List HandleId := o.registry.members.filter o.isAlive

/-- Runs one round more; no outcome means that it never ends. -/
def dispatch (o : Overlap) (round : Round) : Option RoundOutcome × Overlap :=
  let errands := round.errands 0
  let d := (Dispatch.begin o.registry errands).run errands (Dispatch.calls errands.length)
  (RoundOutcome.ofDispatch d errands round 0, ⟨d.registry, o.ahead ++ d.failures errands⟩)

end Overlap

end SumCluster
