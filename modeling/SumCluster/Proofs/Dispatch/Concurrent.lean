import SumCluster.Proofs.Compute
import SumCluster.Proofs.Dispatch.Outcome
import SumCluster.Proofs.Registry.Trust
import SumCluster.Proofs.Worker

/-!
Rounds that run at the same time. As long as every subtask and every result fits its frame, a
connection carries one request and its answer at a time, so rounds keep apart whatever the order of
their calls: each comes to what it would come to alone, and every worker gets its share of each
round once. A single frame that does not fit ends that.
-/

namespace SumCluster

open Dispatch (requestsTo)
open Handle (framesOf)
open Network (Link)
open Wire (Message SubtaskRequest)

/-! ### The share of one worker -/

/-- The subtask that a round hands to the worker at some place of its snapshot. -/
def Round.share? (round : Round) (i : Nat) : Option SubtaskRequest :=
  (split round.task.values round.snapshot.length)[i]?.map (⟨·, round.task.delayMs⟩)

/-- A share is no longer than the task. -/
theorem Round.length_share_le {round : Round} {i : Nat} {q : SubtaskRequest}
    (h : round.share? i = some q) : q.values.length ≤ round.task.values.length := by
  rw [Round.share?, split, List.getElem?_map, Option.map_map] at h
  obtain ⟨p, _, rfl⟩ := Option.map_eq_some_iff.mp h
  simp only [Function.comp, Partition.slice, List.length_take, List.length_drop]
  omega

namespace Dispatch

/-- Of pairs with distinct handles, at most one goes to each handle. -/
theorem requestsTo_zipWith {f : Partition → HandleId → Errand} {g : Partition → SubtaskRequest}
    (hf : ∀ p h, (f p h).handle = h ∧ (f p h).request = g p) {h : HandleId} :
    ∀ {ps : List Partition} {hs : List HandleId} {i : Nat}, hs.Nodup → hs[i]? = some h →
      requestsTo h (List.zipWith f ps hs) = (ps[i]?.map g).toList
  | [], _, _, _, _ => by simp [requestsTo]
  | p :: ps, [], _, _, hi => by simp at hi
  | p :: ps, first :: hs, 0, hs', hi => by
    obtain rfl : first = h := by simpa using hi
    have hrest : requestsTo first (List.zipWith f ps hs) = [] := by
      refine List.filterMap_eq_nil_iff.mpr fun e he => ?_
      rw [← List.map_uncurry_zip_eq_zipWith] at he
      obtain ⟨⟨q, other⟩, hmem, rfl⟩ := List.mem_map.mp he
      refine if_neg fun heq => ?_
      have hother : other = first := (hf q other).1.symm.trans heq
      exact (List.nodup_cons.mp hs').1 (hother ▸ (List.of_mem_zip hmem).2)
    rw [List.zipWith_cons_cons, requestsTo, List.filterMap_cons, (hf p first).1, if_pos rfl,
      (hf p first).2]
    exact congrArg (g p :: ·) hrest
  | p :: ps, first :: hs, i + 1, hs', hi => by
    have hne : first ≠ h := by
      rintro rfl
      exact (List.nodup_cons.mp hs').1 (List.mem_of_getElem? hi)
    have hrest : requestsTo h (List.zipWith f ps hs) = (ps[i]?.map g).toList :=
      requestsTo_zipWith hf (List.nodup_cons.mp hs').2 hi
    rw [List.zipWith_cons_cons, requestsTo, List.filterMap_cons, (hf p first).1, if_neg hne]
    exact hrest

/-- A round asks the worker at some place for its share. -/
theorem requestsTo_errands {round : Round} (distinct : round.snapshot.Nodup) {i : Nat}
    {h : HandleId} (hi : round.snapshot[i]? = some h) (number : Nat) :
    requestsTo h (round.errands number) = (round.share? i).toList := by
  rw [Round.errands, requestsTo_zipWith (g := fun p =>
    ⟨p.slice round.task.values, round.task.delayMs⟩) (fun _ _ => ⟨rfl, rfl⟩) distinct hi]
  rw [Round.share?, split, List.getElem?_map, Option.map_map]
  rfl

/-- A round asks nobody who is not in its snapshot. -/
theorem requestsTo_of_not_mem {round : Round} {h : HandleId} (hh : h ∉ round.snapshot)
    (number : Nat) : requestsTo h (round.errands number) = [] := by
  refine List.filterMap_eq_nil_iff.mpr fun e he => ?_
  obtain ⟨i, p, other, _, hother, rfl⟩ := Round.of_mem_errands he
  refine if_neg fun heq => ?_
  rw [show other = h from heq] at hother
  exact hh (List.mem_of_getElem? hother)

/-- What many rounds ask of one handle, round by round. -/
theorem requestsTo_all {f : Round → Option SubtaskRequest} {h : HandleId} (rounds : List Round)
    (k : Nat)
    (hf : ∀ round ∈ rounds, ∀ number, requestsTo h (round.errands number) = (f round).toList) :
    requestsTo h ((rounds.zipIdx k).flatMap fun (round, number) => round.errands number) =
      rounds.filterMap f := by
  induction rounds generalizing k with
  | nil => rfl
  | cons round rounds ih =>
    have hrest := ih (k + 1) fun other ho => hf other (List.mem_cons_of_mem _ ho)
    rw [List.zipIdx_cons, List.flatMap_cons, requestsTo_append, hrest,
      hf round List.mem_cons_self, List.filterMap_cons]
    cases f round with
    | none => rfl
    | some q => rfl

end Dispatch

/-! ### Rounds that start together -/

namespace Registry

variable {r : Registry} {rounds : List Round} {fit : HandleId → SubtaskRequest → Prop}

/-- The workers of a registry add up whatever they are sent, as long as it is `fit`. -/
def Adds (r : Registry) (fit : HandleId → SubtaskRequest → Prop) : Prop :=
  ∀ h ∈ r.snapshot, ∃ handle, r.handles[h]? = some handle ∧
    handle.Serves (fit h) (fun q => wrappingSum q.values) none

theorem Adds.served {round : Round} (adds : r.Adds fit) (snapshot : round.snapshot = r.snapshot)
    (limit : round.limit = none)
    (fits : ∀ (i : Nat) h q, r.snapshot[i]? = some h → round.share? i = some q → fit h q)
    (number : Nat) : Dispatch.Served r (round.errands number) fit
      (fun _ q => wrappingSum q.values) none := by
  refine ⟨?_, ?_, ?_⟩
  · intro e he
    obtain ⟨i, p, h, _, hh, rfl⟩ := Round.of_mem_errands he
    exact adds h (snapshot ▸ List.mem_of_getElem? hh)
  · intro e he
    obtain ⟨i, p, h, hp, hh, rfl⟩ := Round.of_mem_errands he
    refine fits i h _ (snapshot ▸ hh) ?_
    rw [Round.share?, split, List.getElem?_map, hp]
    rfl
  · intro e he
    obtain ⟨i, p, h, _, _, rfl⟩ := Round.of_mem_errands he
    exact limit

/-- Rounds that start together on a registry whose workers add keep apart, whatever the order of
their calls. -/
theorem rounds_keep_apart {moves : List Move} (sound : r.Sound) (adds : r.Adds fit)
    (together : ∀ round ∈ rounds, round.snapshot = r.snapshot ∧ round.limit = none)
    (fits : ∀ round ∈ rounds, ∀ (i : Nat) h q,
      r.snapshot[i]? = some h → round.share? i = some q → fit h q)
    (complete : Dispatch.Complete (errands rounds).length moves) :
    (∀ (i : Nat) round, rounds[i]? = some round → ∃ outcome alone : RoundOutcome,
      (r.dispatchWith moves rounds).1[i]? = some (some outcome) ∧
      (r.dispatch round).1 = some alone ∧
      outcome.partials = alone.partials ∧ outcome.failed = alone.failed ∧
      aggregate outcome.partials = aggregate alone.partials ∧
      Consensus.validate outcome.partials = Consensus.validate alone.partials) ∧
    ((r.dispatchWith moves rounds).2.Sound ∧
      (r.dispatchWith moves rounds).2.members = r.members ∧
      ∀ h, (r.dispatchWith moves rounds).2.workerId h = r.workerId h ∧
        (r.dispatchWith moves rounds).2.isAlive h = r.isAlive h) ∧
    (∀ (i : Nat) h, r.snapshot[i]? = some h → ∃ before after requests,
      r.handles[h]? = some before ∧ (r.dispatchWith moves rounds).2.handles[h]? = some after ∧
      after.link.taken = before.link.taken ++ framesOf requests ∧
      requests.Perm (rounds.filterMap (·.share? i))) ∧
    (∀ h ∉ r.snapshot, (r.dispatchWith moves rounds).2.handles[h]? = r.handles[h]?) := by
  have hserved : ∀ round ∈ rounds, ∀ number, Dispatch.Served r (round.errands number) fit
      (fun _ q => wrappingSum q.values) none := fun round hround number =>
    adds.served (together round hround).1 (together round hround).2 (fits round hround) number
  have hall := dispatchWith_answers (Dispatch.served_errands hserved) complete
  refine ⟨?_, ⟨sound.dispatchWith moves rounds, hall.members, fun h => ⟨hall.workerId h, hall.isAlive h⟩⟩, ?_, ?_⟩
  · intro i round hi
    have hmem : round ∈ rounds := List.mem_of_getElem? hi
    obtain ⟨elapsed, houtcome⟩ := hall.outcome i round hi
    obtain ⟨elapsed', halone, _⟩ := dispatch_answers (hserved round hmem 0)
    exact ⟨_, _, houtcome, halone, rfl, rfl, rfl, rfl⟩
  · intro i h hi
    obtain ⟨before, hbefore, _⟩ := adds h (List.mem_of_getElem? hi)
    obtain ⟨after, requests, hafter, hasked, hperm⟩ := hall.asked h before hbefore
    refine ⟨before, after, requests, hbefore, hafter, hasked.taken, ?_⟩
    have hrequests := Dispatch.requestsTo_all (f := fun round => round.share? i) rounds 0
      fun round hround number => by
        have hsnapshot := (together round hround).1
        have hdistinct : round.snapshot.Nodup := hsnapshot ▸ sound.distinct.filter _
        exact Dispatch.requestsTo_errands hdistinct (hsnapshot ▸ hi) number
    exact hrequests ▸ hperm
  · intro h hh
    cases hbefore : r.handles[h]? with
    | none => exact hall.absent h hbefore
    | some before =>
      obtain ⟨after, requests, hafter, hasked, hperm⟩ := hall.asked h before hbefore
      have hrequests := Dispatch.requestsTo_all (f := fun _ => none) rounds 0
        fun round hround number =>
          Dispatch.requestsTo_of_not_mem ((together round hround).1 ▸ hh) number
      have hnone : requests = [] := by
        refine List.Perm.eq_nil (hperm.trans ?_)
        rw [errands, hrequests]
        simp
      rw [hafter, hasked.untouched hnone]

/-- A registry of two workers that add. -/
def twoAdders : Registry :=
  ⟨[.fresh "left" (.fresh 1000 (Worker.peer "left" .honest) [] 0),
    .fresh "right" (.fresh 1000 (Worker.peer "right" .honest) [] 0)], [0, 1]⟩

theorem sound_twoAdders : twoAdders.Sound :=
  (sound_empty.register "left" (.fresh 1000 (Worker.peer "left" .honest) [] 0)).register "right"
    (.fresh 1000 (Worker.peer "right" .honest) [] 0)

theorem serves_adder {workerId : String} (short : workerId.utf8ByteSize ≤ 100) :
    (Handle.fresh workerId (Link.fresh 1000 (Worker.peer workerId .honest) [] 0)).Serves
      (fun q => q.values.length ≤ 100) (fun q => wrappingSum q.values) none := by
  have hemploys : (Handle.fresh workerId
      (Link.fresh 1000 (Worker.peer workerId .honest) [] 0)).Employs .honest :=
    ⟨⟨rfl, rfl⟩, ⟨Wire.Connection.sound_fresh 1000, rfl, rfl, rfl, rfl⟩, rfl, [], rfl, nofun⟩
  have hvalue : (fun q : SubtaskRequest => (compute .honest q.values q.delayMs).value) =
      fun q => wrappingSum q.values := funext fun q => compute_honest_value q.values q.delayMs
  rw [← hvalue]
  refine (hemploys.serves none).mono fun q hq => ?_
  have hvalues : 15 + 5 * q.values.length ≤ 1000 := by omega
  have hworkerId : 15 + workerId.utf8ByteSize ≤ 1000 := by omega
  exact Handle.carries_of_short rfl (show 1000 ≤ Worker.limit by decide) hvalues hworkerId

theorem twoAdders_adds : twoAdders.Adds fun _ q => q.values.length ≤ 100 := by
  intro h hh
  obtain rfl | rfl : h = 0 ∨ h = 1 := by
    have hsnapshot : twoAdders.snapshot = [0, 1] := rfl
    simpa [hsnapshot] using hh
  · exact ⟨_, rfl, serves_adder (by decide)⟩
  · exact ⟨_, rfl, serves_adder (by decide)⟩

/-- Two rounds that start together. -/
def twoRounds : List Round := [⟨⟨[1, 2, 3], 0⟩, [0, 1], 0, none⟩, ⟨⟨[4, 5], 7⟩, [0, 1], 0, none⟩]

/-- The calls of the second round overtake those of the first on one connection. -/
theorem rounds_keep_apart_twoAdders : ∃ outcome alone : RoundOutcome,
    (twoAdders.dispatchWith [.call 3, .call 0, .settle 0, .call 1, .call 2] twoRounds).1[0]? =
        some (some outcome) ∧
      (twoAdders.dispatch ⟨⟨[1, 2, 3], 0⟩, [0, 1], 0, none⟩).1 = some alone ∧
      outcome.partials = alone.partials := by
  have hsnapshot : twoAdders.snapshot = [0, 1] := rfl
  have hshort : ∀ round ∈ twoRounds, round.task.values.length ≤ 100 := by decide
  obtain ⟨houtcomes, _⟩ := rounds_keep_apart sound_twoAdders twoAdders_adds
    (by rw [hsnapshot]; decide)
    (fun round hround _ _ _ _ hq => Nat.le_trans (Round.length_share_le hq) (hshort round hround))
    (show Dispatch.Complete (errands twoRounds).length
      [.call 3, .call 0, .settle 0, .call 1, .call 2] by decide)
  obtain ⟨outcome, alone, houtcome, halone, hpartials, _⟩ := houtcomes 0 _ rfl
  exact ⟨outcome, alone, houtcome, halone, hpartials⟩

/-- A registry of one worker that adds, on a connection for short frames. -/
def narrow : Registry :=
  ⟨[.fresh "adder" (.fresh 9 (Worker.peer "adder" .honest) [] 0)], [0]⟩

/-- A round with a result that is too long for a short frame. -/
def longSum : Round := ⟨⟨[1000], 0⟩, [0], 0, none⟩

/-- A round whose frames are all short. -/
def shortSum : Round := ⟨⟨[1], 0⟩, [0], 0, none⟩

/-- Frames that do not fit are what breaks it. The worker answers every subtask with the sum, but a
sum that is too long for its frame ends the trust, and the other round then fails where it would
succeed alone. -/
theorem long_result_ends_other_round :
    (narrow.snapshot = [0] ∧ ∀ (qs : List SubtaskRequest) (q : SubtaskRequest),
      (∀ p ∈ qs ++ [q], Worker.Takes "adder" .honest p) →
        (Worker.peer "adder" .honest).react (framesOf (qs ++ [q])) =
          [⟨(compute .honest q.values q.delayMs).slept,
            .bytes (Message.subtaskResult ⟨wrappingSum q.values, "adder"⟩).frame⟩]) ∧
    (narrow.dispatchWith (Dispatch.inTurn 2) [longSum, shortSum]).1[1]? =
      some (some ⟨[], ["adder"], 0⟩) ∧
    (narrow.dispatch shortSum).1 = some ⟨[⟨0, "adder", 1⟩], [], 0⟩ := by
  refine ⟨⟨rfl, ?_⟩, by decide +kernel, by decide +kernel⟩
  intro qs q hqs
  have hreaction := Worker.reaction_concat (fun p hp => hqs p (List.mem_append_left _ hp))
    (hqs q (by simp))
  rw [Worker.resultOf, compute_honest_value] at hreaction
  exact hreaction

end Registry

end SumCluster
