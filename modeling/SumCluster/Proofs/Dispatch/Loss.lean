import SumCluster.Proofs.Dispatch.Accounting
import SumCluster.Proofs.Round

/-!
What a round loses when workers fail. If the workers that answer add up what they were sent, the sum
of their answers and the sums of the shares that failed make up the sum of the whole task. So the
answer is right exactly if the lost values happen to cancel out in 32 bits.
-/

namespace SumCluster

open Wire (SubtaskResult)

namespace Dispatch

/-- An errand whose call has been answered, with the answer. -/
def answer? : Errand × Option Result → Option (Errand × SubtaskResult)
  | (e, some ⟨.ok answer, _⟩) => some (e, answer)
  | _ => none

/-- The errands whose calls have been answered, with the answers. -/
def answered (errands : List Errand) (d : Dispatch) : List (Errand × SubtaskResult) :=
  (errands.zip d.results).filterMap answer?

/-- What is answered and what is lost make up the whole. -/
theorem wrappingSum_answers_add_losses {pairs : List (Errand × Option Result)}
    (ended : ∀ p ∈ pairs, p.2.isSome = true)
    (honest : ∀ p ∈ pairs.filterMap answer?, p.2.sum = wrappingSum p.1.request.values) :
    wrappingSum ((pairs.filterMap answer?).map (·.2.sum)) +
        wrappingSum ((pairs.filterMap loss?).map (wrappingSum ·.request.values)) =
      wrappingSum (pairs.map (wrappingSum ·.1.request.values)) := by
  induction pairs with
  | nil => rfl
  | cons pair pairs ih =>
    have hended : ∀ p ∈ pairs, p.2.isSome = true := fun p hp => ended p (List.mem_cons_of_mem _ hp)
    -- The first errand is on one side or on the other; its values are then summed there.
    rcases pair with ⟨e, _ | ⟨u | answer, t⟩⟩
    · cases ended _ List.mem_cons_self
    · have hanswers : ((e, some ⟨.error u, t⟩) :: pairs).filterMap answer? =
          pairs.filterMap answer? := List.filterMap_cons_none rfl
      have hlosses : ((e, some ⟨.error u, t⟩) :: pairs).filterMap loss? =
          e :: pairs.filterMap loss? := List.filterMap_cons_some rfl
      rw [hanswers] at honest ⊢
      rw [hlosses, List.map_cons, List.map_cons, wrappingSum_cons, wrappingSum_cons,
        ← ih hended honest]
      ac_rfl
    · have hanswers : ((e, some ⟨.ok answer, t⟩) :: pairs).filterMap answer? =
          (e, answer) :: pairs.filterMap answer? := List.filterMap_cons_some rfl
      have hlosses : ((e, some ⟨.ok answer, t⟩) :: pairs).filterMap loss? =
          pairs.filterMap loss? := List.filterMap_cons_none rfl
      rw [hanswers, List.forall_mem_cons] at honest
      rw [hanswers, hlosses, List.map_cons, List.map_cons, wrappingSum_cons, wrappingSum_cons,
        ← ih hended honest.2, honest.1, Int32.add_assoc]

end Dispatch

/-- The shares of a task are what the errands of a round are about. -/
theorem Round.map_values_errands (round : Round) (number : Nat) :
    (round.errands number).map (·.request.values) =
      split round.task.values round.snapshot.length := by
  have hlength : (partition round.task.values.length round.snapshot.length).length ≤
      round.snapshot.length := by
    rw [length_partition]
    exact Nat.min_le_left _ _
  conv_rhs => rw [split, ← List.map_fst_zip hlength, List.map_map]
  rw [Round.errands, List.map_zipWith, ← List.map_uncurry_zip_eq_zipWith]
  rfl

namespace Registry

variable {r : Registry} {round : Round} {moves : List Move}

/-- The errands of a round whose calls are answered, with the answers. -/
def answered (r : Registry) (moves : List Move) (round : Round) : List (Errand × SubtaskResult) :=
  (r.dispatched moves [round]).answered (round.errands 0)

/-- The errands of a round whose calls fail. -/
def lost (r : Registry) (moves : List Move) (round : Round) : List Errand :=
  (r.dispatched moves [round]).lost (round.errands 0)

/-- When all calls of a round have ended, its partial results have the values of the answers, and
the failed workers are those of the lost errands. -/
theorem outcome_of_answered_of_lost
    (ended : ∀ result ∈ (r.dispatched moves [round]).results, result.isSome = true) :
    ∃ outcome : RoundOutcome, (r.dispatchWith moves [round]).1 = [some outcome] ∧
      outcome.partials.map (·.value) = (r.answered moves round).map (·.2.sum) ∧
      outcome.failed = (r.lost moves round).map (r.workerId ·.handle) := by
  obtain ⟨outcome, houtcome, hpartials, hfailed⟩ := outcome_of_ended ended
  refine ⟨outcome, houtcome, ?_, ?_⟩
  · rw [hpartials, answered, Dispatch.answered, List.map_filterMap, List.map_filterMap]
    refine List.filterMap_congr fun p _ => ?_
    rcases p with ⟨e, _ | ⟨u | answer, t⟩⟩ <;> rfl
  · rw [hfailed, lost, Dispatch.lost, List.map_filterMap]
    refine List.filterMap_congr fun p _ => ?_
    rcases p with ⟨e, _ | ⟨u | answer, t⟩⟩ <;> rfl

/-- If the workers that answer have added up what they were sent, then what a round comes to and
what it has lost make up what one worker makes of the whole task. -/
theorem aggregate_add_lost (workers : round.snapshot ≠ [])
    (ended : ∀ result ∈ (r.dispatched moves [round]).results, result.isSome = true)
    (honest : ∀ p ∈ r.answered moves round, p.2.sum = wrappingSum p.1.request.values) :
    ∃ outcome : RoundOutcome, (r.dispatchWith moves [round]).1 = [some outcome] ∧
      outcome.failed = (r.lost moves round).map (r.workerId ·.handle) ∧
      aggregate outcome.partials +
          wrappingSum ((r.lost moves round).map (wrappingSum ·.request.values)) =
        (baseline round.task.values round.task.delayMs).value ∧
      (aggregate outcome.partials = (baseline round.task.values round.task.delayMs).value ↔
        (2 ^ 32 : Int) ∣
          (((r.lost moves round).flatMap (·.request.values)).map Int32.toInt).sum) ∧
      (outcome.failed = [] →
        aggregate outcome.partials = (baseline round.task.values round.task.delayMs).value) := by
  obtain ⟨outcome, houtcome, hvalues, hfailed⟩ := outcome_of_answered_of_lost ended
  have hsize : (round.errands 0).length ≤ (r.dispatched moves [round]).results.length := by
    rw [(recorded_dispatched r moves [round]).size, errands_singleton]
  have hwhole : aggregate outcome.partials +
      wrappingSum ((r.lost moves round).map (wrappingSum ·.request.values)) =
        (baseline round.task.values round.task.delayMs).value := by
    have hparts := Dispatch.wrappingSum_answers_add_losses
      (fun p hp => ended p.2 (List.of_mem_zip hp).2) honest
    have hslices : ((round.errands 0).zip (r.dispatched moves [round]).results).map
        (wrappingSum ·.1.request.values) =
          (split round.task.values round.snapshot.length).map wrappingSum := by
      rw [← Round.map_values_errands round 0]
      conv_rhs => rw [← List.map_fst_zip hsize, List.map_map, List.map_map]
      rfl
    rw [aggregate_eq_wrappingSum, hvalues, baseline, compute_honest_value]
    refine hparts.trans ?_
    rw [hslices, wrappingSum_map_wrappingSum,
      flatten_split _ (List.length_pos_iff.mpr workers)]
  have hlost : wrappingSum ((r.lost moves round).map (wrappingSum ·.request.values)) =
      wrappingSum ((r.lost moves round).flatMap (·.request.values)) := by
    rw [List.flatMap_def, ← wrappingSum_map_wrappingSum, List.map_map]
    rfl
  refine ⟨outcome, houtcome, hfailed, hwhole, ?_, fun hnone => ?_⟩
  · rw [← hwhole, Int32.left_eq_add, hlost, wrappingSum_eq_zero_iff]
  · rw [hfailed, List.map_eq_nil_iff] at hnone
    rw [← hwhole, hnone]
    exact (Int32.add_zero _).symm

/-- Three workers; two of them leave as soon as they get a subtask. -/
def leaving : Registry :=
  ⟨[scripted "stays" [], scripted "leaves" [.close], scripted "goes" [.close]], [0, 1, 2]⟩

/-- A round that loses values which add up to the number of all words. -/
def cancelling : Round :=
  ⟨⟨[1, 2, 2147483647, 1, 2147483647, 1], 0⟩, [0, 1, 2], 0, none⟩

theorem aggregate_add_lost_cancelling : ∃ outcome : RoundOutcome,
    (leaving.dispatchWith (Dispatch.inTurn 3) [cancelling]).1 = [some outcome] ∧
      outcome.failed = ["leaves", "goes"] ∧
      aggregate outcome.partials = (baseline cancelling.task.values 0).value := by
  have ended : ∀ result ∈ (leaving.dispatched (Dispatch.inTurn 3) [cancelling]).results,
      result.isSome = true := by
    decide +kernel
  obtain ⟨outcome, houtcome, hfailed, _, hright, _⟩ :=
    aggregate_add_lost (show cancelling.snapshot ≠ [] by decide) ended (by decide +kernel)
  exact ⟨outcome, houtcome, hfailed.trans (by decide +kernel), hright.mpr (by decide +kernel)⟩

end Registry

end SumCluster
