import SumCluster.Dispatch

/-!
Calls to workers that no rule stands for. What such a worker does is put on its way when it happens;
at any moment a call is worked out on what has come so far. Once that has it ended, what comes later
makes no difference any more, and the call gives the connection back.
-/

namespace SumCluster

open Network (Arrival)
open Wire (Bytes)

/-- A call that has the connection of its worker. -/
structure Turn where
  errand : Errand
  /-- The worker as it was when the turn came, with all that has come since. -/
  handle : Handle

namespace Turn

/-- What the call comes to if nothing more comes. -/
def call (t : Turn) : Option Reply × Handle :=
  t.handle.call t.errand.start t.errand.request t.errand.limit

/-- Something comes from the worker. -/
def arrive (t : Turn) (a : Arrival) : Turn :=
  { t with handle := { t.handle with link := t.handle.link.expect a } }

/-- The frames that the call hands over. -/
def frames (t : Turn) : List Bytes := t.call.2.link.taken

/-- The result of the call if nothing more comes. -/
def result? (t : Turn) : Option Result := t.call.1.map fun reply => ⟨reply, t.call.2.link.now⟩

/-- The result of the call, if it has ended by some moment. -/
def ended? (t : Turn) (now : Nanos) : Option Result := t.result?.filter (·.finish ≤ now)

/-- The worker after the call, from what is registered of it then: trust that was ended meanwhile
stays ended. -/
def leave (t : Turn) (registered : Handle) : Handle :=
  { t.call.2 with alive := registered.alive && t.call.2.alive }

end Turn

namespace Registry

/-- The turn of an errand has come. The frames of earlier calls are forgotten. -/
def turn? (r : Registry) (e : Errand) : Option Turn :=
  r.handles[e.handle]?.map fun handle => ⟨e, { handle with link := handle.link.forget }⟩

/-- A call gives the connection back. -/
def giveBack (r : Registry) (t : Turn) : Registry := r.update t.errand.handle t.leave

end Registry

end SumCluster
