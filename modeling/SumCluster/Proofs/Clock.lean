import Mathlib.Data.Prod.Lex
import Mathlib.Order.Basic
import SumCluster.Clock

/-!
How the milliseconds of the wire and the nanoseconds of the clock fit together. A delay is no longer
than a time exactly if it has no more milliseconds than the wire gives the time; negative delays,
times too long for the wire and broken milliseconds are no exception. This is why both conversions
are monotone, and why going one way and back loses no more than it has to.
-/

namespace SumCluster.Nanos

variable {m m' : Int32} {d d' : Nanos}

/-! ### Seconds and nanoseconds -/

theorem toParts_ofParts (secs : Nat) {nanos : Nat} (h : nanos < second) :
    toParts (ofParts secs nanos) = (secs, nanos) := by
  have hpos : 0 < second := by decide
  rw [toParts, ofParts, Nat.add_comm, Nat.add_mul_div_right _ _ hpos, Nat.div_eq_of_lt h,
    Nat.add_mul_mod_self_right, Nat.mod_eq_of_lt h, Nat.zero_add]

/-- Times are ordered by their seconds, and by the nanoseconds left over if those are the same. -/
theorem toParts_le_iff : toLex (toParts d) ≤ toLex (toParts d') ↔ d ≤ d' := by
  have hparts (a b : Nat) : a / 1000000000 < b / 1000000000 ∨
      a / 1000000000 = b / 1000000000 ∧ a % 1000000000 ≤ b % 1000000000 ↔ a ≤ b := by omega
  rw [Prod.Lex.toLex_le_toLex]
  exact hparts d d'

/-! ### Milliseconds -/

theorem toInt_toMillis (d : Nanos) : (toMillis d).toInt = (min (d / milli) maxMillis : Nat) := by
  have hmax : maxMillis < 2 ^ 31 := by decide
  exact Int32.toInt_ofNat_of_lt (Nat.lt_of_le_of_lt (Nat.min_le_right _ _) hmax)

theorem toNat_toInt_le (m : Int32) : m.toInt.toNat ≤ maxMillis := by
  have hlt : m.toInt < 2 ^ 31 := m.toInt_lt
  simp only [maxMillis]
  omega

theorem toInt_max_zero (m : Int32) : (max m 0).toInt = max m.toInt 0 := by
  change (if m ≤ 0 then 0 else m).toInt = _
  split_ifs with h <;> rw [Int32.le_iff_toInt_le, Int32.toInt_zero] at h
  · rw [max_eq_right h, Int32.toInt_zero]
  · rw [max_eq_left (Int.le_of_not_le h)]

/-- A delay is at most a time exactly if it is at most the milliseconds of the time. No delay that
the wire can name is beyond the longest time it can name, so cutting off there changes nothing. -/
theorem ofMillis_le_iff : ofMillis m ≤ d ↔ m ≤ toMillis d := by
  have hclamp (k : Nat) : m.toInt.toNat ≤ k ↔ m.toInt ≤ (min k maxMillis : Nat) := by
    have hfits := toNat_toInt_le m
    omega
  rw [Int32.le_iff_toInt_le, toInt_toMillis, ofMillis, ← Nat.le_div_iff_mul_le (by decide)]
  exact hclamp (d / milli)

/-! ### Back and forth -/

theorem le_toMillis_ofMillis (m : Int32) : m ≤ toMillis (ofMillis m) :=
  ofMillis_le_iff.mp (Nat.le_refl _)

theorem ofMillis_toMillis_le (d : Nanos) : ofMillis (toMillis d) ≤ d :=
  ofMillis_le_iff.mpr (Int32.le_refl _)

theorem ofMillis_mono (h : m ≤ m') : ofMillis m ≤ ofMillis m' :=
  ofMillis_le_iff.mpr (Int32.le_trans h (le_toMillis_ofMillis m'))

theorem toMillis_mono (h : d ≤ d') : toMillis d ≤ toMillis d' :=
  ofMillis_le_iff.mp (Nat.le_trans (ofMillis_toMillis_le d) h)

theorem toMillis_ofMillis (m : Int32) : toMillis (ofMillis m) = max m 0 := by
  rw [← Int32.toInt_inj, toInt_toMillis, ofMillis, Nat.mul_div_cancel _ (by decide),
    Nat.min_eq_left (toNat_toInt_le m), Int.toNat_eq_max, toInt_max_zero]

/-- Less than a millisecond is lost, unless there are more of them than the wire can name. -/
theorem lt_ofMillis_toMillis_iff : d < ofMillis (toMillis d) + milli ↔ d / milli ≤ maxMillis := by
  have hlost (d : Nat) : d < min (d / 1000000) 2147483647 * 1000000 + 1000000 ↔
      d / 1000000 ≤ 2147483647 := by omega
  rw [ofMillis, toInt_toMillis, Int.toNat_natCast]
  exact hlost d

theorem toMillis_eq_maxValue (h : maxMillis ≤ d / milli) : toMillis d = Int32.maxValue := by
  rw [← Int32.toInt_inj, toInt_toMillis, Nat.min_eq_right h]
  rfl

/-- The two conversions are adjoint, for every delay and every time in seconds and nanoseconds. So
both are monotone; a delay comes back from the clock as it was, a negative one as zero; and a time
comes back from the wire no longer than it was, and shorter by less than a millisecond unless the
wire gave it the longest delay there is. -/
theorem millis_adjunction :
    (∀ (m : Int32) (secs nanos : Nat), nanos < second →
      (toLex (toParts (ofMillis m)) ≤ toLex (secs, nanos) ↔ m ≤ toMillis (ofParts secs nanos))) ∧
    (∀ (m : Int32) (d : Nanos), ofMillis m ≤ d ↔ m ≤ toMillis d) ∧
    (∀ m m' : Int32, m ≤ m' → ofMillis m ≤ ofMillis m') ∧
    (∀ d d' : Nanos, d ≤ d' → toMillis d ≤ toMillis d') ∧
    (∀ m : Int32, toMillis (ofMillis m) = max m 0) ∧
    ∀ d : Nanos, ofMillis (toMillis d) ≤ d ∧
      (d < ofMillis (toMillis d) + milli ∨ toMillis d = Int32.maxValue) := by
  refine ⟨fun m secs nanos hnanos => ?_, fun m d => ofMillis_le_iff, fun m m' => ofMillis_mono,
    fun d d' => toMillis_mono, toMillis_ofMillis, fun d => ⟨ofMillis_toMillis_le d, ?_⟩⟩
  · rw [← toParts_ofParts secs hnanos, toParts_le_iff, ofMillis_le_iff]
  · rcases Nat.le_total (d / milli) maxMillis with hfits | hlong
    · exact .inl (lt_ofMillis_toMillis_iff.mpr hfits)
    · exact .inr (toMillis_eq_maxValue hlong)

/-- One nanosecond short of three milliseconds is two of them, and the longest time in 64 bits of
seconds is more than the wire can name. -/
theorem millis_adjunction_bounds :
    ¬(3 : Int32) ≤ toMillis (ofParts 0 2999999) ∧
    Int32.maxValue ≤ toMillis (ofParts 18446744073709551615 999999999) ∧
    ofMillis (-5) ≤ ofMillis 2 ∧ toMillis 2999999 ≤ toMillis 3000000 := by
  obtain ⟨hparts, -, hmillis, htime, -⟩ := millis_adjunction
  refine ⟨?_, ?_, hmillis _ _ (by decide), htime _ _ (by decide)⟩
  · exact fun h => absurd ((hparts 3 0 2999999 (by decide)).mpr h) (by decide)
  · exact (hparts Int32.maxValue 18446744073709551615 999999999 (by decide)).mp (by decide)

end SumCluster.Nanos
