import Mathlib.Data.Finset.Card
import Mathlib.Data.List.Dedup
import SumCluster.Proofs.Compute
import SumCluster.Round

/-!
The verdict on partial results. They are accepted exactly if no two of their values are the same;
otherwise the verdict names the number of different values among them.
-/

namespace SumCluster

theorem aggregate_eq_wrappingSum (partials : List PartialResult) :
    aggregate partials = wrappingSum (partials.map (·.value)) := by
  rw [aggregate, wrappingSum, List.foldl_map]

namespace Consensus

theorem distinct_eq_length_dedup (vs : List Int32) : distinct vs = vs.dedup.length := by
  induction vs with
  | nil => rfl
  | cons v vs ih =>
    by_cases h : v ∈ vs
    · rw [distinct, if_pos h, List.dedup_cons_of_mem h, ih]
    · rw [distinct, if_neg h, List.dedup_cons_of_notMem h, List.length_cons, ih]

theorem distinct_eq_card (vs : List Int32) : distinct vs = vs.toFinset.card := by
  rw [distinct_eq_length_dedup, List.card_toFinset]

theorem distinct_le_length (vs : List Int32) : distinct vs ≤ vs.length := by
  rw [distinct_eq_length_dedup]
  exact (List.dedup_sublist vs).length_le

theorem distinct_lt_length {vs : List Int32} : distinct vs < vs.length ↔ ¬vs.Nodup := by
  have hle := distinct_le_length vs
  rw [distinct_eq_length_dedup] at hle ⊢
  constructor
  · intro hlt hnodup
    rw [hnodup.dedup] at hlt
    exact absurd hlt (Nat.lt_irrefl _)
  · intro hnodup
    refine Nat.lt_of_le_of_ne hle fun heq => hnodup ?_
    exact List.dedup_eq_self.mp ((List.dedup_sublist vs).eq_of_length heq)

theorem validate_of_nodup {partials : List PartialResult} (h : (partials.map (·.value)).Nodup) :
    validate partials = .ok () := by
  have hlt := mt distinct_lt_length.mp (not_not_intro h)
  rw [List.length_map] at hlt
  rw [validate, if_neg hlt]

theorem validate_of_not_nodup {partials : List PartialResult}
    (h : ¬(partials.map (·.value)).Nodup) : validate partials = .error
      (.consensusFailed (partials.map (·.value)).toFinset.card partials.length) := by
  have hlt := distinct_lt_length.mpr h
  rw [List.length_map] at hlt
  rw [validate, if_pos hlt, distinct_eq_card]

end Consensus

end SumCluster
