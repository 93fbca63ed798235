import SumCluster.Proofs.Dispatch.Loss

/-!
The verdict on a round. It is about the values alone: results are accepted exactly if no two values
are the same, in whichever order they come, and a rejection counts the different ones. Leaving
results out makes no two of them the same, so a round that would be accepted with all its results
is accepted without those of the workers that failed.
-/

namespace SumCluster

open Wire (SubtaskRequest)

namespace Consensus

variable {partials others : List PartialResult}

theorem validate_eq_ok_iff : validate partials = .ok () ↔ (partials.map (·.value)).Nodup := by
  constructor
  · intro h
    by_contra hnodup
    rw [validate_of_not_nodup hnodup] at h
    cases h
  · exact validate_of_nodup

/-- In a list in which a value occurs twice, the different values are fewer than the values, but
there is one. -/
theorem card_toFinset_of_not_nodup {values : List Int32} (h : ¬values.Nodup) :
    1 ≤ values.toFinset.card ∧ values.toFinset.card < values.length := by
  constructor
  · rw [Nat.one_le_iff_ne_zero, Finset.card_ne_zero, List.toFinset_nonempty_iff]
    rintro rfl
    exact h List.nodup_nil
  · rw [← distinct_eq_card]
    exact distinct_lt_length.mpr h

/-- The order of the values makes no difference, and nothing but the values does. -/
theorem validate_perm (h : (others.map (·.value)).Perm (partials.map (·.value))) :
    validate others = validate partials := by
  have hlength : others.length = partials.length := by simpa using h.length_eq
  rw [validate, validate, distinct_eq_card, distinct_eq_card, List.toFinset_eq_of_perm _ _ h,
    hlength]

/-- Whatever is left out, accepted results are accepted. -/
theorem validate_sublist (hsub : others.Sublist partials) (h : validate partials = .ok ()) :
    validate others = .ok () :=
  validate_eq_ok_iff.mpr ((hsub.map _).nodup (validate_eq_ok_iff.mp h))

end Consensus

namespace Registry

variable {r : Registry} {rounds : List Round} {round : Round} {moves : List Move}
  {value : HandleId → SubtaskRequest → Int32}

/-- What some calls bring in is part of what all would bring in. -/
theorem filterMap_answerOf_sublist {pairs : List (Errand × Option Result)}
    (h : ∀ p ∈ pairs.filterMap Dispatch.answer?, p.2.sum = value p.1.handle p.1.request) :
    (pairs.filterMap r.answerOf).Sublist ((pairs.map (·.1)).map (r.partialOf value)) := by
  induction pairs with
  | nil => exact List.Sublist.refl []
  | cons pair pairs ih =>
    rcases pair with ⟨e, _ | ⟨u | answer, t⟩⟩
    · exact (ih h).cons _
    · exact (ih h).cons _
    · have hanswers : ((e, some ⟨.ok answer, t⟩) :: pairs).filterMap Dispatch.answer? =
          (e, answer) :: pairs.filterMap Dispatch.answer? := List.filterMap_cons_some rfl
      rw [hanswers, List.forall_mem_cons] at h
      have hpartial : r.answerOf (e, some ⟨.ok answer, t⟩) = some (r.partialOf value e) := by
        rw [answerOf, h.1, partialOf]
      rw [List.filterMap_cons_some hpartial]
      exact (ih h.2).cons_cons _

/-- The partial results of a round are those of its shares but for the calls that failed. -/
theorem partials_sublist {i : Nat} {outcome : RoundOutcome} (hround : rounds[i]? = some round)
    (houtcome : (r.dispatchWith moves rounds).1[i]? = some (some outcome))
    (tells : ∀ p ∈ (r.dispatched moves rounds).answered (errands rounds),
      p.2.sum = value p.1.handle p.1.request) :
    outcome.partials.Sublist (r.partials value round) := by
  have hdeclines := declines_dispatched r moves rounds
  have hsize := (recorded_dispatched r moves rounds).size
  rw [getElem?_dispatchWith hround, Option.some.injEq, RoundOutcome.ofDispatch] at houtcome
  generalize r.dispatched moves rounds = d at *
  have hpartials := (RoundOutcome.eq_of_collect houtcome).1
  rw [List.nil_append, List.filterMap_congr fun p _ => (hdeclines.answerOf p).1] at hpartials
  have hown := filter_errands (k := 0) hround
  rw [Nat.zero_add] at hown
  have hall := congrArg (List.map (r.partialOf value)) (RoundOutcome.map_fst_filter_zip hsize i)
  rw [errands, hown, round.map_errands i fun _ _ => rfl, ← partials] at hall
  rw [hpartials, ← hall]
  refine filterMap_answerOf_sublist fun p hp => tells p ?_
  exact (List.filter_sublist.filterMap _).subset hp

end Registry

/-- A round that brings in three different sums unless workers leave. -/
def Round.apart : Round := ⟨⟨[5, 6, 7], 0⟩, [0, 1, 2], 0, none⟩

namespace Consensus

/-- What the verdict says, what it depends on, and that it does not turn against results of which
some are left out. -/
theorem validate_verdict (partials : List PartialResult) :
    (validate partials = .ok () ↔ (partials.map (·.value)).Nodup) ∧
    (¬(partials.map (·.value)).Nodup → ∃ distinct : Nat,
      validate partials = .error (.consensusFailed distinct partials.length) ∧
      distinct = (partials.map (·.value)).toFinset.card ∧
      1 ≤ distinct ∧ distinct < partials.length) ∧
    (∀ others : List PartialResult, (others.map (·.value)).Perm (partials.map (·.value)) →
      validate others = validate partials) ∧
    (∀ fewer : List PartialResult, fewer.Sublist partials →
      validate partials = .ok () → validate fewer = .ok ()) ∧
    ∀ (r : Registry) (moves : List Move) (rounds : List Round) (i : Nat) (round : Round)
      (outcome : RoundOutcome) (value : HandleId → SubtaskRequest → Int32),
      rounds[i]? = some round → r.partials value round = partials → validate partials = .ok () →
      (∀ p ∈ (r.dispatched moves rounds).answered (Registry.errands rounds),
        p.2.sum = value p.1.handle p.1.request) →
      (r.dispatchWith moves rounds).1[i]? = some (some outcome) →
      validate outcome.partials = .ok () := by
  refine ⟨validate_eq_ok_iff, fun hnodup => ?_, fun others => validate_perm,
    fun fewer => validate_sublist, ?_⟩
  · obtain ⟨hpos, hlt⟩ := card_toFinset_of_not_nodup hnodup
    rw [List.length_map] at hlt
    exact ⟨_, validate_of_not_nodup hnodup, rfl, hpos, hlt⟩
  · rintro r moves rounds i round outcome value hround rfl haccepted tells houtcome
    exact validate_sublist (Registry.partials_sublist hround houtcome tells) haccepted

/-- Three results of which two are the same, and a round that two of three workers leave. -/
theorem validate_verdict_leaving :
    (∃ distinct : Nat, validate [⟨0, "a", 7⟩, ⟨1, "b", 9⟩, ⟨2, "c", 7⟩] =
      .error (.consensusFailed distinct 3) ∧ 1 ≤ distinct ∧ distinct < 3) ∧
    ∃ outcome : RoundOutcome,
      (Registry.leaving.dispatchWith (Dispatch.inTurn 3) [.apart]).1 = [some outcome] ∧
      outcome.failed = ["leaves", "goes"] ∧ validate outcome.partials = .ok () := by
  have ended : ∀ result ∈ (Registry.leaving.dispatched (Dispatch.inTurn 3) [.apart]).results,
      result.isSome = true := by
    decide +kernel
  obtain ⟨outcome, houtcome, _, hfailed⟩ := Registry.outcome_of_answered_of_lost ended
  obtain ⟨_, hrejects, _⟩ := validate_verdict [⟨0, "a", 7⟩, ⟨1, "b", 9⟩, ⟨2, "c", 7⟩]
  obtain ⟨distinct, hverdict, _, hpos, hlt⟩ := hrejects (by decide)
  refine ⟨⟨distinct, hverdict, hpos, hlt⟩, outcome, houtcome, hfailed.trans (by decide +kernel), ?_⟩
  exact (validate_verdict _).2.2.2.2 .leaving (Dispatch.inTurn 3) [.apart] 0 .apart outcome
    (fun _ request => wrappingSum request.values) rfl rfl (by decide +kernel) (by decide +kernel)
    (by rw [houtcome]; rfl)

end Consensus

end SumCluster
