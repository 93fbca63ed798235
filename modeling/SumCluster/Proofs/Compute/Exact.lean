import Mathlib.Algebra.BigOperators.Group.List.Basic
import Mathlib.Data.Int.ModEq
import SumCluster.Proofs.Compute

/-!
What is computed and what exact arithmetic would have computed. Every step may overflow, but what
is left at the end is the exact sum or product as far as 32 bits can tell it, and the very number
if it fits 32 bits. So the order of the values does not matter, and lists may be computed apart.
-/

namespace SumCluster

namespace ComputeMode

variable {mode : ComputeMode}

/-- What the mode makes of the values if no number is too great. -/
def exact : ComputeMode → List Int32 → Int
  | honest, values => (values.map Int32.toInt).sum
  | faulty, values => (values.map Int32.toInt).prod

/-- Taking nothing more in changes nothing. -/
@[simp]
theorem combine_start (mode : ComputeMode) (v : Int32) : mode.combine v mode.start = v := by
  cases mode with
  | honest => exact Int32.add_zero v
  | faulty => exact Int32.mul_one v

@[simp]
theorem start_combine (mode : ComputeMode) (v : Int32) : mode.combine mode.start v = v := by
  cases mode with
  | honest => exact Int32.zero_add v
  | faulty => exact Int32.one_mul v

theorem combine_assoc (mode : ComputeMode) (u v w : Int32) :
    mode.combine (mode.combine u v) w = mode.combine u (mode.combine v w) := by
  cases mode with
  | honest => exact Int32.add_assoc u v w
  | faulty => exact Int32.mul_assoc u v w

@[simp]
theorem ofInt_exact_nil (mode : ComputeMode) : Int32.ofInt (mode.exact []) = mode.start := by
  cases mode <;> rfl

/-- Cutting the exact result down to 32 bits commutes with taking one more value in. -/
theorem ofInt_exact_cons (mode : ComputeMode) (v : Int32) (vs : List Int32) :
    Int32.ofInt (mode.exact (v :: vs)) = mode.combine v (Int32.ofInt (mode.exact vs)) := by
  cases mode with
  | honest => simp [exact, combine, Int32.ofInt_add]
  | faulty => simp [exact, combine, Int32.ofInt_mul]

/-- The exact result does not depend on the order of the values. -/
theorem exact_perm {values others : List Int32} (h : others.Perm values) :
    mode.exact others = mode.exact values := by
  cases mode with
  | honest => exact (h.map Int32.toInt).sum_eq
  | faulty => exact (h.map Int32.toInt).prod_eq

/-- The loop: what was there before combines with the exact result for the rest. -/
theorem foldl_combine (mode : ComputeMode) (v : Int32) (vs : List Int32) :
    vs.foldl mode.combine v = mode.combine v (Int32.ofInt (mode.exact vs)) := by
  induction vs generalizing v with
  | nil => simp
  | cons w vs ih => rw [List.foldl_cons, ih, combine_assoc, ofInt_exact_cons]

end ComputeMode

/-- Exactly one number of 32 bits is the same as an exact one as far as 32 bits can tell. -/
theorem ofInt_eq_iff_modEq (a : Int) (v : Int32) :
    Int32.ofInt a = v ↔ v.toInt ≡ a [ZMOD 2 ^ 32] := by
  rw [← Int32.toInt_inj, Int32.toInt_ofInt]
  constructor
  · intro h
    rw [← h]
    exact Int.bmod_emod
  · intro h
    have hfits : v.toInt.bmod Int32.size = v.toInt := by
      rw [← Int32.toInt_ofInt, Int32.ofInt_toInt]
    calc a.bmod Int32.size = (a % Int32.size).bmod Int32.size := (Int.emod_bmod _ _).symm
      _ = (v.toInt % Int32.size).bmod Int32.size := congrArg (·.bmod Int32.size) h.symm
      _ = v.toInt := by rw [Int.emod_bmod, hfits]

theorem compute_value_eq_ofInt (mode : ComputeMode) (values : List Int32) (delay : Int32) :
    (compute mode values delay).value = Int32.ofInt (mode.exact values) := by
  rw [compute_value, ComputeMode.foldl_combine, ComputeMode.start_combine]

/-- A result that fits 32 bits comes out as it is, whatever overflowed on the way. -/
theorem compute_value_of_fits {mode : ComputeMode} {values : List Int32} (delay : Int32)
    (hlow : -2 ^ 31 ≤ mode.exact values) (hhigh : mode.exact values < 2 ^ 31) :
    (compute mode values delay).value.toInt = mode.exact values := by
  rw [compute_value_eq_ofInt, Int32.toInt_ofInt]
  exact Int.bmod_eq_of_le hlow hhigh

theorem compute_perm {values others : List Int32} (mode : ComputeMode) (delay : Int32)
    (h : others.Perm values) : compute mode others delay = compute mode values delay := by
  rw [compute, compute, foldl_step, foldl_step, h.length_eq, ComputeMode.foldl_combine,
    ComputeMode.foldl_combine, ComputeMode.exact_perm h]

/-- Lists may be computed apart. -/
theorem compute_value_append (mode : ComputeMode) (values more : List Int32) (delay : Int32) :
    (compute mode (values ++ more) delay).value =
      mode.combine (compute mode values delay).value (compute mode more delay).value := by
  rw [compute_value mode (values ++ more), List.foldl_append, ComputeMode.foldl_combine,
    ← compute_value mode values delay, ← compute_value_eq_ofInt mode more delay]

/-- The value is the one that agrees with the exact result in 32 bits, and is that result if it
fits. It is the same for the values in any order, and made from those of two parts of the list.
The pauses are as many as the values, and a negative delay is none. -/
theorem compute_exact_modulo (mode : ComputeMode) (values : List Int32) (delay : Int32) :
    (∀ v : Int32, v.toInt ≡ mode.exact values [ZMOD 2 ^ 32] ↔
      v = (compute mode values delay).value) ∧
    (-2 ^ 31 ≤ mode.exact values → mode.exact values < 2 ^ 31 →
      (compute mode values delay).value.toInt = mode.exact values) ∧
    (∀ others : List Int32, others.Perm values →
      compute mode others delay = compute mode values delay) ∧
    (∀ more : List Int32, (compute mode (values ++ more) delay).value =
      mode.combine (compute mode values delay).value (compute mode more delay).value) ∧
    ((compute mode values delay).slept : Int) =
      values.length * (max delay.toInt 0 * Nanos.milli) := by
  refine ⟨fun v => ?_, compute_value_of_fits delay, fun others => compute_perm mode delay,
    fun more => compute_value_append mode values more delay, ?_⟩
  · rw [compute_value_eq_ofInt, ← ofInt_eq_iff_modEq, eq_comm]
  · rw [compute_slept, Nanos.ofMillis, Nat.cast_mul, Nat.cast_mul, Int.toNat_eq_max]

/-- The greatest number and one more, and their sum brought back by a third; two numbers whose
product with a third would need 33 bits. -/
theorem compute_exact_modulo_overflowing :
    (compute .honest [2147483647, 1, -1] 5).value.toInt = 2147483647 ∧
    (compute .faulty [-2147483648, -1, -1] 5).value.toInt = -2147483648 :=
  ⟨(compute_exact_modulo .honest [2147483647, 1, -1] 5).2.1 (by decide) (by decide),
    (compute_exact_modulo .faulty [-2147483648, -1, -1] 5).2.1 (by decide) (by decide)⟩

end SumCluster
