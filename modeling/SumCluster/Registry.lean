import SumCluster.Handle

/-!
The workers that the leader knows. Every handle that was ever registered keeps its number; the
registry proper is the list of the numbers that are registered now, in the order in which shares are
given out. A worker that registers again under its id takes the place of the one before it, and
whatever leaves the registry is dead from then on.
-/

namespace SumCluster

open Network (Link)
open Wire (SubtaskRequest)

/-- The number of a handle, by the order in which they were registered. -/
abbrev HandleId : Type := Nat

/-- All handles there ever were, and which of them are registered. -/
structure Registry where
  handles : List Handle
  members : List HandleId

namespace Registry

/-- Nobody has registered yet. -/
def empty : Registry := ⟨[], []⟩

/-- The id of the worker behind a handle. -/
def workerId (r : Registry) (h : HandleId) : String :=
  match r.handles[h]? with
  | some handle => handle.workerId
  | none => ""

/-- Whether a handle can be trusted. -/
def isAlive (r : Registry) (h : HandleId) : Bool :=
  match r.handles[h]? with
  | some handle => handle.alive
  | none => false

/-- Changes one handle. -/
def update (r : Registry) (h : HandleId) (f : Handle → Handle) : Registry :=
  { r with handles := r.handles.modify h f }

/-- Ends the trust in a handle. -/
def kill (r : Registry) (h : HandleId) : Registry := r.update h Handle.kill

/-- The handle that is registered for an id. -/
def find? (r : Registry) (id : String) : Option HandleId :=
  r.members.find? fun h => r.workerId h = id

/-- Registers a worker on its connection. One that is registered under the same id is replaced where
it stands. -/
def register (r : Registry) (id : String) (link : Link) : HandleId × Registry :=
  let new := r.handles.length
  match r.find? id with
  | some old =>
    (new, { (r.kill old) with
      handles := (r.kill old).handles ++ [.fresh id link]
      members := r.members.map fun h => if h = old then new else h })
  | none => (new, ⟨r.handles ++ [.fresh id link], r.members ++ [new]⟩)

/-- The registered handles that can be trusted, in order. -/
def snapshot (r : Registry) : List HandleId := r.members.filter r.isAlive

/-- Takes out whichever handle is registered for an id. -/
def remove (r : Registry) (id : String) : Option HandleId × Registry :=
  match r.find? id with
  | some h => (some h, { (r.kill h) with members := r.members.erase h })
  | none => (none, r)

/-- Takes out one handle, if it is the one that is registered; it is dead in any case. -/
def deregister (r : Registry) (h : HandleId) : Bool × Registry :=
  (r.members.contains h, { (r.kill h) with members := r.members.erase h })

/-- Takes everybody out. -/
def clear (r : Registry) : Registry := { r.members.foldl kill r with members := [] }

/-- The ids of all registered workers, in order. -/
def workerIds (r : Registry) : List String := r.members.map r.workerId

/-- Calls the worker behind a handle. -/
def call (r : Registry) (h : HandleId) (start : Nanos) (request : SubtaskRequest)
    (limit : Option Nanos) : Option Reply × Registry :=
  match r.handles[h]? with
  | some handle =>
    ((handle.call start request limit).1, r.update h fun _ => (handle.call start request limit).2)
  | none => (none, r)

/-- The worker behind a handle disappears. -/
def cut (r : Registry) (h : HandleId) (t : Nanos) : Registry := r.update h (·.cut t)

/-- How late it is on the connection of a handle. -/
def clock (r : Registry) (h : HandleId) : Nanos :=
  match r.handles[h]? with
  | some handle => handle.link.now
  | none => 0

/-- How late it is on the connection that is furthest on. -/
def latest (r : Registry) : Nanos :=
  r.handles.foldl (fun t handle => max t handle.link.now) 0

end Registry

end SumCluster
