import SumCluster.Clock
import SumCluster.Error

/-!
What one round of a task brings in: the partial results that came, the workers that failed, and the
time it took. The results are added up, and they are fit to be reported only if no two of them are
the same.
-/

namespace SumCluster

/-- A worker's answer for one share of a round. -/
structure PartialResult where
  index : Nat
  workerId : String
  value : Int32
  deriving DecidableEq, Repr

/-- Everything that a round produced. -/
structure RoundOutcome where
  /-- The answers that came, by the number of their share. -/
  partials : List PartialResult
  /-- The ids of the workers that failed, by the number of their share. -/
  failed : List String
  /-- From the start to the last call's end. -/
  elapsed : Nanos
  deriving DecidableEq, Repr

/-- The sum of partial results; 32-bit overflow wraps. -/
def aggregate (partials : List PartialResult) : Int32 :=
  partials.foldl (fun sum p => sum + p.value) 0

namespace Consensus

/-- How many different values a list has: each counts where it occurs last. -/
def distinct : List Int32 → Nat
  | [] => 0
  | v :: vs => if v ∈ vs then distinct vs else distinct vs + 1

/-- Accepts partial results of which no two are the same. -/
def validate (partials : List PartialResult) : Except ClusterError Unit :=
  if distinct (partials.map (·.value)) < partials.length then
    .error (.consensusFailed (distinct (partials.map (·.value))) partials.length)
  else .ok ()

end Consensus

end SumCluster
