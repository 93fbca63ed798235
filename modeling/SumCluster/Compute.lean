import SumCluster.Clock

/-!
What a worker does with its share of the values: an honest one adds them up, a faulty one multiplies
them, both in 32-bit arithmetic that wraps, and both pause after every value.
-/

namespace SumCluster

/-- How a worker combines its values. -/
inductive ComputeMode where
  /-- Adds the values. -/
  | honest
  /-- Multiplies the values, which is wrong on purpose. -/
  | faulty
  deriving DecidableEq, Repr, Inhabited

namespace ComputeMode

/-- The result for no values at all. -/
def start : ComputeMode → Int32
  | honest => 0
  | faulty => 1

/-- Takes one more value in; 32-bit overflow wraps. -/
def combine : ComputeMode → Int32 → Int32 → Int32
  | honest => (· + ·)
  | faulty => (· * ·)

/-- The mode that the flag `0` or `1` asks for. -/
def ofFlag : Nat → Option ComputeMode
  | 0 => some honest
  | 1 => some faulty
  | _ => none

end ComputeMode

/-- A value computed so far and the time spent pausing on the way. -/
structure Computation where
  value : Int32
  slept : Nanos
  deriving DecidableEq, Repr

namespace Computation

/-- Takes one value in and pauses once. -/
def step (mode : ComputeMode) (pause : Nanos) (c : Computation) (v : Int32) : Computation :=
  ⟨mode.combine c.value v, c.slept + pause⟩

end Computation

/-- Combines `values` from left to right, pausing `delay` milliseconds after each. -/
def compute (mode : ComputeMode) (values : List Int32) (delay : Int32) : Computation :=
  values.foldl (Computation.step mode (Nanos.ofMillis delay)) ⟨mode.start, 0⟩

/-- What one honest worker makes of all the values; a distributed sum is held against it. -/
def baseline (values : List Int32) (delay : Int32) : Computation :=
  compute .honest values delay

end SumCluster
