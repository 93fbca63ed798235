import SumCluster.Proofs.Dispatch.Interleaving
import SumCluster.Proofs.Partition

/-!
The outcomes of rounds whose workers all answer. The answers are put together by share number, so
the outcome of a round does not depend on the order of the calls or on what other rounds there are,
except for the time that it took.
-/

namespace SumCluster

open Wire (SubtaskRequest)

/-! ### The errands of a round -/

/-- An errand hands the share at some place to the worker at that place. -/
theorem Round.of_mem_errands {round : Round} {number : Nat} {e : Errand}
    (he : e ∈ round.errands number) : ∃ (i : Nat) (p : Partition) (h : HandleId),
      (partition round.task.values.length round.snapshot.length)[i]? = some p ∧
        round.snapshot[i]? = some h ∧ e = round.errand number p h := by
  rw [Round.errands, ← List.map_uncurry_zip_eq_zipWith] at he
  obtain ⟨⟨p, h⟩, hmem, rfl⟩ := List.mem_map.mp he
  obtain ⟨i, hi⟩ := List.mem_iff_getElem?.mp hmem
  obtain ⟨hp, hh⟩ := List.getElem?_zip_eq_some.mp hi
  exact ⟨i, p, h, hp, hh, rfl⟩

theorem Round.length_errands (round : Round) (number : Nat) : (round.errands number).length =
    min round.task.values.length round.snapshot.length := by
  rw [Round.errands, List.length_zipWith, length_partition]
  omega

/-- There is one errand for each share, with the values of the share. -/
theorem Round.getElem?_errands {round : Round} {i : Nat}
    (hi : i < min round.task.values.length round.snapshot.length) (number : Nat) :
    ∃ h slice, round.snapshot[i]? = some h ∧
      (split round.task.values round.snapshot.length)[i]? = some slice ∧
      (round.errands number)[i]? =
        some ⟨number, i, h, ⟨slice, round.task.delayMs⟩, round.start, round.limit⟩ := by
  obtain ⟨e, he⟩ : ∃ e, (round.errands number)[i]? = some e :=
    ⟨_, List.getElem?_eq_getElem (by rw [Round.length_errands]; exact hi)⟩
  rw [Round.errands, List.getElem?_zipWith_eq_some] at he
  obtain ⟨p, h, hp, hh, rfl⟩ := he
  refine ⟨h, p.slice round.task.values, hh, by rw [split, List.getElem?_map, hp]; rfl, ?_⟩
  rw [Round.errands, List.getElem?_zipWith_eq_some]
  exact ⟨p, h, hp, hh, by rw [Round.errand, index_of_getElem? hp]⟩

/-- The part of a round in an outcome, when its worker answers with a value. -/
def Registry.partialOf (r : Registry) (value : HandleId → SubtaskRequest → Int32) (e : Errand) :
    PartialResult :=
  ⟨e.index, r.workerId e.handle, value e.handle e.request⟩

/-- All partial results of a round whose workers answer. -/
def Registry.partials (r : Registry) (value : HandleId → SubtaskRequest → Int32) (round : Round) :
    List PartialResult :=
  (round.errands 0).map (r.partialOf value)

theorem Round.round_of_mem_errands {round : Round} {number : Nat} {e : Errand}
    (he : e ∈ round.errands number) : e.round = number := by
  obtain ⟨_, _, _, _, _, rfl⟩ := Round.of_mem_errands he
  rfl

/-- Errands differ between rounds only by the round's number. -/
theorem Round.map_errands {β : Type} (round : Round) (number : Nat) {f : Errand → β}
    (hf : ∀ (e : Errand) (n : Nat), f { e with round := n } = f e) :
    (round.errands number).map f = (round.errands 0).map f := by
  rw [Round.errands, Round.errands, List.map_zipWith, List.map_zipWith]
  congr
  funext p h
  exact (hf (round.errand number p h) 0).symm

/-- The values of a round are those of its shares, in order. -/
theorem Registry.map_value_partials (r : Registry) (value : HandleId → SubtaskRequest → Int32)
    (round : Round) : (r.partials value round).map (·.value) =
      List.zipWith (fun slice h => value h ⟨slice, round.task.delayMs⟩)
        (split round.task.values round.snapshot.length) round.snapshot := by
  rw [Registry.partials, Round.errands, List.map_map, List.map_zipWith, split,
    List.zipWith_map_left]
  rfl

/-- The errands with the number of a round are its own. -/
theorem Registry.filter_errands {round : Round} : ∀ {rounds : List Round} {k i : Nat},
    rounds[i]? = some round →
    ((rounds.zipIdx k).flatMap fun (round, number) => round.errands number).filter
      (fun e => e.round = k + i) = round.errands (k + i)
  | [], _, _, h => by simp at h
  | first :: rest, k, 0, h => by
    obtain rfl : first = round := by simpa using h
    rw [List.zipIdx_cons, List.flatMap_cons, List.filter_append]
    have hown : (first.errands k).filter (fun e => e.round = k + 0) = first.errands k := by
      rw [List.filter_eq_self]
      intro e he
      simpa using Round.round_of_mem_errands he
    have hothers : ((rest.zipIdx (k + 1)).flatMap fun (round, number) =>
        round.errands number).filter (fun e => e.round = k + 0) = [] := by
      rw [List.filter_eq_nil_iff]
      intro e he
      obtain ⟨⟨other, number⟩, hmem, he⟩ := List.mem_flatMap.mp he
      have hle := List.le_snd_of_mem_zipIdx hmem
      have hround := Round.round_of_mem_errands he
      simp only at hle hround
      simp only [decide_eq_true_eq]
      omega
    rw [hothers, List.append_nil]
    exact hown
  | first :: rest, k, i + 1, h => by
    rw [List.zipIdx_cons, List.flatMap_cons, List.filter_append]
    have hfirst : (first.errands k).filter (fun e => e.round = k + (i + 1)) = [] := by
      rw [List.filter_eq_nil_iff]
      intro e he
      have hround := Round.round_of_mem_errands he
      simp only [decide_eq_true_eq]
      omega
    have hrest := Registry.filter_errands (k := k + 1) (i := i) (by simpa using h)
    rw [hfirst, List.nil_append, show k + (i + 1) = k + 1 + i by omega]
    exact hrest

theorem Registry.errands_singleton (round : Round) : errands [round] = round.errands 0 := by
  simp [errands]

/-- Each errand is of one of the rounds, and has its number. -/
theorem Registry.of_mem_errands {rounds : List Round} {e : Errand}
    (he : e ∈ Registry.errands rounds) :
    ∃ (i : Nat) (round : Round), rounds[i]? = some round ∧ e ∈ round.errands i := by
  obtain ⟨⟨round, i⟩, hmem, he⟩ := List.mem_flatMap.mp he
  exact ⟨i, round, List.mem_zipIdx_iff_getElem?.mp hmem, he⟩

/-- Rounds whose workers answer, together. -/
theorem Dispatch.served_errands {r : Registry} {rounds : List Round}
    {fit : HandleId → SubtaskRequest → Prop} {value : HandleId → SubtaskRequest → Int32}
    {limit : Option Nanos} (hs : ∀ round ∈ rounds, ∀ number,
      Dispatch.Served r (round.errands number) fit value limit) :
    Dispatch.Served r (Registry.errands rounds) fit value limit := by
  refine ⟨?_, ?_, ?_⟩
  · intro e he
    obtain ⟨i, round, hround, he⟩ := Registry.of_mem_errands he
    exact (hs round (List.mem_of_getElem? hround) i).serves e he
  · intro e he
    obtain ⟨i, round, hround, he⟩ := Registry.of_mem_errands he
    exact (hs round (List.mem_of_getElem? hround) i).fits e he
  · intro e he
    obtain ⟨i, round, hround, he⟩ := Registry.of_mem_errands he
    exact (hs round (List.mem_of_getElem? hround) i).limits e he

/-! ### Putting an outcome together -/

/-- The partial result that a call brings in, if it has succeeded. -/
def Registry.answerOf (r : Registry) : Errand × Option Result → Option PartialResult
  | (e, some ⟨.ok answer, _⟩) => some ⟨e.index, r.workerId e.handle, answer.sum⟩
  | _ => none

/-- The id of the worker of a call, if it has failed. -/
def Registry.failureOf (r : Registry) : Errand × Option Result → Option String
  | (e, some ⟨.error _, _⟩) => some (r.workerId e.handle)
  | _ => none

namespace RoundOutcome

variable {r : Registry} {value : HandleId → SubtaskRequest → Int32}

/-- Once all calls have ended, an outcome has what each brings in, in the order of the calls. -/
theorem collect_of_ended (r : Registry) (start : Nanos) {pairs : List (Errand × Option Result)}
    (o : RoundOutcome) (h : ∀ p ∈ pairs, p.2.isSome = true) : ∃ elapsed,
    collect r start o pairs = some ⟨o.partials ++ pairs.filterMap r.answerOf,
      o.failed ++ pairs.filterMap r.failureOf, elapsed⟩ := by
  induction pairs generalizing o with
  | nil => exact ⟨o.elapsed, by simp [collect]⟩
  | cons pair pairs ih =>
    obtain ⟨e, result⟩ := pair
    obtain ⟨result, rfl⟩ := Option.isSome_iff_exists.mp (h _ List.mem_cons_self)
    obtain ⟨elapsed, hrest⟩ := ih (o.add r start e result) fun p hp =>
      h p (List.mem_cons_of_mem _ hp)
    refine ⟨elapsed, ?_⟩
    rw [collect, hrest]
    obtain ⟨u | answer, finish⟩ := result <;>
      simp [add, List.filterMap_cons, Registry.answerOf, Registry.failureOf]

/-- There is no outcome before all calls have ended. -/
theorem ended_of_collect {r : Registry} {start : Nanos} {pairs : List (Errand × Option Result)}
    {o o' : RoundOutcome} (h : collect r start o pairs = some o') :
    ∀ p ∈ pairs, p.2.isSome = true := by
  induction pairs generalizing o with
  | nil => exact nofun
  | cons pair pairs ih =>
    rcases pair with ⟨e, _ | result⟩
    · cases h
    · exact List.forall_mem_cons.mpr ⟨rfl, ih h⟩

/-- An outcome that there is has what each call brings in. -/
theorem eq_of_collect {r : Registry} {start : Nanos} {pairs : List (Errand × Option Result)}
    {o o' : RoundOutcome} (h : collect r start o pairs = some o') :
    o'.partials = o.partials ++ pairs.filterMap r.answerOf ∧
      o'.failed = o.failed ++ pairs.filterMap r.failureOf := by
  obtain ⟨elapsed, heq⟩ := collect_of_ended r start o (ended_of_collect h)
  obtain rfl := Option.some.inj (h.symm.trans heq)
  exact ⟨rfl, rfl⟩

/-- The result of an errand whose worker has answered. -/
def Answered (value : HandleId → SubtaskRequest → Int32) (p : Errand × Option Result) : Prop :=
  ∃ workerId finish, p.2 = some ⟨.ok ⟨value p.1.handle p.1.request, workerId⟩, finish⟩

theorem answerOf_of_answered {p : Errand × Option Result} (h : Answered value p) :
    r.answerOf p = some (r.partialOf value p.1) ∧ r.failureOf p = none := by
  obtain ⟨e, result⟩ := p
  obtain ⟨workerId, finish, hresult⟩ := h
  obtain rfl : result = some ⟨.ok ⟨value e.handle e.request, workerId⟩, finish⟩ := hresult
  exact ⟨rfl, rfl⟩

theorem collect_of_answered (r : Registry) (start : Nanos)
    {pairs : List (Errand × Option Result)} (o : RoundOutcome)
    (h : ∀ p ∈ pairs, Answered value p) : ∃ elapsed, collect r start o pairs =
      some ⟨o.partials ++ (pairs.map (·.1)).map (r.partialOf value), o.failed, elapsed⟩ := by
  have hended : ∀ p ∈ pairs, p.2.isSome = true := by
    intro p hp
    obtain ⟨workerId, finish, hresult⟩ := h p hp
    rw [hresult]
    rfl
  obtain ⟨elapsed, heq⟩ := collect_of_ended r start o hended
  have hanswers : pairs.filterMap r.answerOf = (pairs.map (·.1)).map (r.partialOf value) := by
    rw [List.map_map, ← List.filterMap_eq_map]
    exact List.filterMap_congr fun p hp => (answerOf_of_answered (h p hp)).1
  have hfailures : pairs.filterMap r.failureOf = [] :=
    List.filterMap_eq_nil_iff.mpr fun p hp => (answerOf_of_answered (h p hp)).2
  rw [hanswers, hfailures, List.append_nil] at heq
  exact ⟨elapsed, heq⟩

/-- Every partial result comes from an errand, whatever the workers do. -/
theorem length_partials_le {r : Registry} {start : Nanos}
    {pairs : List (Errand × Option Result)} {o o' : RoundOutcome}
    (h : collect r start o pairs = some o') :
    o'.partials.length ≤ o.partials.length + pairs.length := by
  rw [(eq_of_collect h).1, List.length_append]
  exact Nat.add_le_add_left (List.length_filterMap_le _ _) _

/-- Choosing errands first or pairs first is the same. -/
theorem map_fst_filter_zip {errands : List Errand} {results : List (Option Result)}
    (h : results.length = errands.length) (number : Nat) :
    ((errands.zip results).filter fun (e, _) => e.round = number).map (·.1) =
      errands.filter fun e => e.round = number := by
  conv_rhs => rw [← List.map_fst_zip (Nat.le_of_eq h.symm), List.filter_map]
  rfl

end RoundOutcome

/-! ### Whole rounds -/

/-- What rounds come to whose workers all answer. -/
structure Registry.Answers (r : Registry) (rounds : List Round)
    (value : HandleId → SubtaskRequest → Int32)
    (result : List (Option RoundOutcome) × Registry) : Prop where
  outcome : ∀ (i : Nat) (round : Round), rounds[i]? = some round → ∃ elapsed,
    result.1[i]? = some (some ⟨r.partials value round, [], elapsed⟩)
  members : result.2.members = r.members
  workerId : ∀ h, result.2.workerId h = r.workerId h
  isAlive : ∀ h, result.2.isAlive h = r.isAlive h
  absent : ∀ h : HandleId, r.handles[h]? = none → result.2.handles[h]? = none
  asked : ∀ (h : HandleId) (before : Handle), r.handles[h]? = some before → ∃ after requests,
    result.2.handles[h]? = some after ∧ before.Asked requests after ∧
      requests.Perm (Dispatch.requestsTo h (Registry.errands rounds))

namespace Dispatch

variable {r : Registry} {errands : List Errand} {fit : HandleId → SubtaskRequest → Prop}
  {value : HandleId → SubtaskRequest → Int32} {limit : Option Nanos} {calls : List Nat}
  {d : Dispatch}

/-- A handle has no number before the calls exactly if it has none after them. -/
theorem Progress.handles_none (hp : Progress r errands fit value limit calls d) {h : HandleId}
    (hnone : r.handles[h]? = none) : d.registry.handles[h]? = none := by
  rw [List.getElem?_eq_none_iff] at hnone ⊢
  rwa [hp.count]

theorem Progress.workerId (hp : Progress r errands fit value limit calls d) (h : HandleId) :
    d.registry.workerId h = r.workerId h := by
  cases hh : r.handles[h]? with
  | none => rw [Registry.workerId, Registry.workerId, hh, hp.handles_none hh]
  | some before =>
    obtain ⟨after, hafter, hasked⟩ := hp.asked h before hh
    rw [Registry.workerId, Registry.workerId, hh, hafter]
    exact hasked.workerId

theorem Progress.isAlive (hp : Progress r errands fit value limit calls d) (h : HandleId) :
    d.registry.isAlive h = r.isAlive h := by
  cases hh : r.handles[h]? with
  | none => rw [Registry.isAlive, Registry.isAlive, hh, hp.handles_none hh]
  | some before =>
    obtain ⟨after, hafter, hasked⟩ := hp.asked h before hh
    rw [Registry.isAlive, Registry.isAlive, hh, hafter]
    exact hasked.alive

/-- Once all calls were made, every result is an answer. -/
theorem Progress.answers (hp : Progress r errands fit value limit calls d)
    (hall : calls.Perm (List.range errands.length)) :
    ∀ p ∈ errands.zip d.results, RoundOutcome.Answered value p := by
  intro p hmem
  obtain ⟨i, hi, rfl⟩ := List.mem_iff_getElem.mp hmem
  simp only [List.length_zip, hp.size, Nat.min_self] at hi
  have hcalled : i ∈ calls := hall.mem_iff.mpr (List.mem_range.mpr hi)
  obtain ⟨workerId, finish, hresult⟩ :=
    hp.answered i hcalled errands[i] (List.getElem?_eq_getElem hi)
  refine ⟨workerId, finish, ?_⟩
  rw [List.getElem_zip]
  exact (List.getElem?_eq_some_iff.mp hresult).2

end Dispatch

namespace Registry

variable {r : Registry} {rounds : List Round} {fit : HandleId → SubtaskRequest → Prop}
  {value : HandleId → SubtaskRequest → Int32} {limit : Option Nanos}

/-- Where rounds stand after some moves. -/
def dispatched (r : Registry) (moves : List Move) (rounds : List Round) : Dispatch :=
  (Dispatch.begin r (errands rounds)).run (errands rounds) moves

/-- The outcome of each round is put together from what has come of all errands. -/
theorem getElem?_dispatchWith {round : Round} {i : Nat} (hround : rounds[i]? = some round)
    (r : Registry) (moves : List Move) : (r.dispatchWith moves rounds).1[i]? =
      some (RoundOutcome.ofDispatch (r.dispatched moves rounds) (errands rounds) round i) := by
  simp only [dispatchWith, List.getElem?_map, List.getElem?_zipIdx, hround, Option.map_some,
    Nat.zero_add]
  rfl

/-- Rounds whose workers all answer, their calls made in any order. -/
theorem dispatchWith_answers {moves : List Move}
    (hs : Dispatch.Served r (errands rounds) fit value limit)
    (hm : Dispatch.Complete (errands rounds).length moves) :
    r.Answers rounds value (r.dispatchWith moves rounds) := by
  have hp : Dispatch.Progress r (errands rounds) fit value limit (Dispatch.called moves)
      (r.dispatched moves rounds) := (Dispatch.progress_begin hs).run moves
  refine ⟨?_, hp.members, hp.workerId, hp.isAlive, fun _ => hp.handles_none, ?_⟩
  · intro i round hi
    have hanswers : ∀ p ∈ ((errands rounds).zip (r.dispatched moves rounds).results).filter
        fun (e, _) => e.round = i, RoundOutcome.Answered value p := fun p hmem =>
      hp.answers hm p (List.mem_of_mem_filter hmem)
    obtain ⟨elapsed, hcollect⟩ := RoundOutcome.collect_of_answered
      (r.dispatched moves rounds).registry round.start ⟨[], [], 0⟩ hanswers
    refine ⟨elapsed, ?_⟩
    have hown : (errands rounds).filter (fun e => e.round = i) = round.errands i := by
      have hfilter := filter_errands (k := 0) hi
      rwa [Nat.zero_add] at hfilter
    have hpartials : (round.errands i).map
        ((r.dispatched moves rounds).registry.partialOf value) = r.partials value round := by
      rw [round.map_errands i fun _ _ => rfl, partials]
      refine List.map_congr_left fun e _ => ?_
      rw [partialOf, partialOf, hp.workerId]
    rw [RoundOutcome.map_fst_filter_zip hp.size, hown, hpartials] at hcollect
    exact (getElem?_dispatchWith hi r moves).trans (congrArg some hcollect)
  · intro h before hh
    obtain ⟨after, hafter, hasked⟩ := hp.asked h before hh
    exact ⟨after, _, hafter, hasked, List.Perm.filterMap _ hm.made_perm⟩

end Registry

/-- Calling and settling in turn makes each call once. -/
theorem Dispatch.complete_inTurn (count : Nat) : Complete count (inTurn count) := by
  have hcalled : called (inTurn count) = List.range count := by
    rw [called, inTurn, List.filterMap_flatMap]
    simp [Move.call?, List.filterMap_cons]
  rw [Complete, hcalled]

/-- A round has at most as many partial results as its task has values. -/
theorem Registry.length_partials_le {r : Registry} {round : Round} {o : RoundOutcome}
    (h : (r.dispatch round).1 = some o) : o.partials.length ≤ round.task.values.length := by
  have herrands : (Registry.errands [round]).length ≤ round.task.values.length := by
    rw [errands_singleton, Round.length_errands]
    exact Nat.min_le_left _ _
  have hlength := RoundOutcome.length_partials_le h
  refine Nat.le_trans (Nat.le_trans hlength ?_) herrands
  rw [List.length_nil, Nat.zero_add]
  refine Nat.le_trans (List.length_filter_le _ _) ?_
  rw [List.length_zip]
  exact Nat.min_le_left _ _

/-- One round whose workers all answer. -/
theorem Registry.dispatch_answers {r : Registry} {round : Round}
    {fit : HandleId → SubtaskRequest → Prop} {value : HandleId → SubtaskRequest → Int32}
    {limit : Option Nanos} (hs : Dispatch.Served r (round.errands 0) fit value limit) :
    ∃ elapsed, (r.dispatch round).1 = some ⟨r.partials value round, [], elapsed⟩ ∧
      r.Answers [round] value (r.dispatchAll [round]) := by
  have hanswers : r.Answers [round] value (r.dispatchAll [round]) :=
    dispatchWith_answers (errands_singleton round ▸ hs) (Dispatch.complete_inTurn _)
  obtain ⟨elapsed, houtcome⟩ := hanswers.outcome 0 round rfl
  refine ⟨elapsed, ?_, hanswers⟩
  rw [dispatch]
  simp [List.head?_eq_getElem?, houtcome]

end SumCluster
