import Mathlib.Algebra.Ring.Int.Defs
import SumCluster.Compute

/-!
What the modes compute. The value depends on the values alone and the time on how many there are.
Honest sums add up: what honest workers make of the parts of a list adds up to what one makes of
the whole, whichever sums overflow on the way.
-/

namespace SumCluster

/-- The sum of some values; 32-bit overflow wraps. -/
def wrappingSum (values : List Int32) : Int32 := values.foldl (· + ·) 0

theorem foldl_add (v : Int32) (vs : List Int32) : vs.foldl (· + ·) v = v + wrappingSum vs := by
  induction vs generalizing v with
  | nil => simp [wrappingSum]
  | cons w vs ih =>
    rw [wrappingSum, List.foldl_cons, List.foldl_cons, ih (v + w), ih (0 + w), Int32.zero_add,
      Int32.add_assoc]

theorem wrappingSum_cons (v : Int32) (vs : List Int32) :
    wrappingSum (v :: vs) = v + wrappingSum vs := by
  rw [wrappingSum, List.foldl_cons, foldl_add, Int32.zero_add]

theorem wrappingSum_append (vs ws : List Int32) :
    wrappingSum (vs ++ ws) = wrappingSum vs + wrappingSum ws := by
  rw [wrappingSum, List.foldl_append, foldl_add]
  rfl

/-- The sum of the sums of parts is the sum of the whole. -/
theorem wrappingSum_map_wrappingSum (parts : List (List Int32)) :
    wrappingSum (parts.map wrappingSum) = wrappingSum parts.flatten := by
  induction parts with
  | nil => rfl
  | cons part parts ih =>
    rw [List.map_cons, wrappingSum_cons, List.flatten_cons, wrappingSum_append, ih]

/-- The sum is the exact one as far as 32 bits can tell. -/
theorem wrappingSum_eq_ofInt (values : List Int32) :
    wrappingSum values = Int32.ofInt (values.map Int32.toInt).sum := by
  induction values with
  | nil => rfl
  | cons v vs ih =>
    rw [wrappingSum_cons, ih, List.map_cons, List.sum_cons, Int32.ofInt_add, Int32.ofInt_toInt]

theorem wrappingSum_eq_zero_iff (values : List Int32) :
    wrappingSum values = 0 ↔ (2 ^ 32 : Int) ∣ (values.map Int32.toInt).sum := by
  rw [wrappingSum_eq_ofInt, ← Int32.toInt_inj, Int32.toInt_ofInt]
  exact Int.dvd_iff_bmod_eq_zero.symm

theorem foldl_step (mode : ComputeMode) (pause : Nanos) (vs : List Int32) (c : Computation) :
    vs.foldl (Computation.step mode pause) c =
      ⟨vs.foldl mode.combine c.value, c.slept + vs.length * pause⟩ := by
  induction vs generalizing c with
  | nil => simp
  | cons v vs ih =>
    rw [List.foldl_cons, ih]
    simp only [Computation.step, List.foldl_cons, List.length_cons, Computation.mk.injEq, true_and]
    rw [Nat.add_mul, Nat.one_mul, Nat.add_comm (vs.length * pause), Nat.add_assoc]

theorem compute_value (mode : ComputeMode) (values : List Int32) (delay : Int32) :
    (compute mode values delay).value = values.foldl mode.combine mode.start := by
  rw [compute, foldl_step]

theorem compute_slept (mode : ComputeMode) (values : List Int32) (delay : Int32) :
    (compute mode values delay).slept = values.length * Nanos.ofMillis delay := by
  rw [compute, foldl_step, Nat.zero_add]

theorem compute_honest_value (values : List Int32) (delay : Int32) :
    (compute .honest values delay).value = wrappingSum values :=
  compute_value .honest values delay

end SumCluster
