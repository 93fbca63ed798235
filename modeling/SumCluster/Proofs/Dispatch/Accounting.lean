import Mathlib.Tactic.IntervalCases
import SumCluster.Network.Script
import SumCluster.Proofs.Dispatch.Moves

/-!
What a round accounts for. The workers of a snapshot are different ones, so what the call on each
comes to does not depend on the others or on the order of the calls; and the outcome has every share
once, as a partial result or as a failure, in the order of the snapshot.
-/

namespace SumCluster

open Wire (SubtaskRequest)

/-! ### Calls that end -/

namespace Handle

variable {h : Handle} {q : SubtaskRequest} {t : Nanos}

theorem isSome_exchange_of_deadline : (h.exchange q (some t)).1.isSome = true := by
  unfold exchange
  split
  · rfl
  · split
    · rfl
    · rfl
    · rename_i hsilence
      exact (Network.Link.hear_of_deadline _ _ _ _ hsilence).elim

/-- With a deadline, a call that gets the connection comes to an end. -/
theorem isSome_call_of_deadline (hheld : h.held = false) (start : Nanos) :
    (h.call start q (some t)).1.isSome = true := by
  rw [call, hheld, if_neg (by decide)]
  split
  · exact isSome_exchange_of_deadline
  · rfl

end Handle

/-! ### Calls on different handles -/

namespace Dispatch

variable {r : Registry} {errands : List Errand} {moves : List Move} {d : Dispatch}

/-- Where errands to different handles stand: the handles that have not been called are as they
were, and the results are those of calls on the handles as they were. -/
structure Apart (r : Registry) (errands : List Errand) (moves : List Move) (d : Dispatch) :
    Prop where
  recorded : Recorded errands moves d
  untouched : ∀ (i : Nat) e, errands[i]? = some e → i ∉ called moves →
    d.registry.handles[e.handle]? = r.handles[e.handle]?
  replied : ∀ (i : Nat) e, errands[i]? = some e → i ∈ called moves →
    ∃ result : Option Result, d.results[i]? = some result ∧
      result.map (·.reply) = (r.call e.handle e.start e.request e.limit).1

theorem handle_ne {i j : Nat} {e e' : Errand} (distinct : (errands.map (·.handle)).Nodup)
    (hi : errands[i]? = some e) (hj : errands[j]? = some e') (hij : i ≠ j) :
    e.handle ≠ e'.handle := by
  intro heq
  have hlt : i < (errands.map (·.handle)).length := by
    rw [List.length_map]
    exact (List.getElem?_eq_some_iff.mp hi).1
  refine hij ((List.getElem?_inj hlt distinct).mp ?_)
  rw [List.getElem?_map, List.getElem?_map, hi, hj, Option.map_some, Option.map_some, heq]

theorem Apart.step_call (hd : Apart r errands moves d) {i : Nat}
    (distinct : (errands.map (·.handle)).Nodup) (hnew : i ∉ called moves) :
    Apart r errands (moves ++ [.call i]) (d.step errands (.call i)) := by
  have hrecorded := hd.recorded.step (.call i)
  cases he : errands[i]? with
  | none =>
    have hne : ∀ (j : Nat) e, errands[j]? = some e → j ≠ i := by
      rintro j e hj rfl
      cases he.symm.trans hj
    rw [step_call_of_none he] at hrecorded ⊢
    refine ⟨hrecorded, fun j e hj hn => hd.untouched j e hj ?_, fun j e hj hm => ?_⟩
    · exact fun hm => hn (mem_called_call.mpr (.inl hm))
    · exact hd.replied j e hj ((mem_called_call.mp hm).resolve_right (hne j e hj))
  | some e =>
    have hlt := hd.recorded.lt_length he
    rw [Dispatch.step_call he] at hrecorded ⊢
    refine ⟨hrecorded, fun j e' hj hn => ?_, fun j e' hj hm => ?_⟩
    · rw [mem_called_call, not_or] at hn
      rw [Registry.handles_call_of_ne (handle_ne distinct he hj (Ne.symm hn.2))]
      exact hd.untouched j e' hj hn.1
    · by_cases hij : i = j
      · subst hij
        obtain rfl := Option.some.inj (he.symm.trans hj)
        refine ⟨_, List.getElem?_set_self hlt, ?_⟩
        rw [Option.map_map, ← Registry.call_congr (hd.untouched i e he hnew)]
        exact Option.map_id'
      · rw [List.getElem?_set_ne hij]
        exact hd.replied j e' hj ((mem_called_call.mp hm).resolve_right (Ne.symm hij))

/-- Settling touches only a handle that has been called. -/
theorem Apart.step_settle (hd : Apart r errands moves d) (i : Nat)
    (distinct : (errands.map (·.handle)).Nodup) :
    Apart r errands (moves ++ [.settle i]) (d.step errands (.settle i)) := by
  have hrecorded := hd.recorded.step (.settle i)
  have hcalled := called_settle moves i
  rcases Dispatch.step_settle errands d i with ⟨e, u, t, he, hresult, hstep⟩ | hstep
  · rw [hstep] at hrecorded ⊢
    refine ⟨hrecorded, fun j e' hj hn => ?_, fun j e' hj hm => ?_⟩
    · rw [hcalled] at hn
      have hij : i ≠ j := by
        rintro rfl
        exact hd.recorded.pending i hn _ hresult
      have hother := Registry.handles_update_of_ne (r := d.registry)
        (handle_ne distinct he hj hij) Handle.kill
      exact hother.trans (hd.untouched j e' hj hn)
    · exact hd.replied j e' hj (hcalled ▸ hm)
  · rw [hstep] at hrecorded ⊢
    exact ⟨hrecorded, hcalled.symm ▸ hd.untouched, hcalled.symm ▸ hd.replied⟩

theorem apart_run (distinct : (errands.map (·.handle)).Nodup) (moves : List Move)
    (once : (called moves).Nodup) :
    Apart r errands moves ((begin r errands).run errands moves) :=
  run_induction ⟨recorded_begin r errands, fun _ _ _ _ => rfl, nofun⟩
    (fun _ _ _ hd hnew => hd.step_call distinct hnew)
    (fun _ _ i hd => hd.step_settle i distinct) moves once

end Dispatch

/-! ### The outcome -/

/-- How many shares a round has. -/
def Round.count (round : Round) : Nat := min round.task.values.length round.snapshot.length

/-- What is brought in under one of two heads each is no less and no more than there was. -/
theorem length_filterMap_add {α β γ : Type} {f : α → Option β} {g : α → Option γ} {l : List α}
    (h : ∀ x ∈ l, (f x).isSome = !(g x).isSome) :
    (l.filterMap f).length + (l.filterMap g).length = l.length := by
  have hothers : l.countP (fun x => (g x).isSome) = l.countP fun x => ¬(f x).isSome = true :=
    List.countP_congr fun x hx => by simp [h x hx, Option.isSome_iff_ne_none]
  rw [List.length_filterMap_eq_countP, List.length_filterMap_eq_countP, hothers]
  exact (List.length_eq_countP_add_countP fun x => (f x).isSome).symm

/-- The workers of a round are the first ones of its snapshot. -/
theorem Round.map_handle_errands (round : Round) (number : Nat) :
    (round.errands number).map (·.handle) = round.snapshot.take round.count := by
  refine List.ext_getElem? fun i => ?_
  by_cases hi : i < round.count
  · obtain ⟨h, slice, hh, _, he⟩ := Round.getElem?_errands hi number
    rw [List.getElem?_map, he, List.getElem?_take_of_lt hi, hh]
    rfl
  · have hle : round.count ≤ i := Nat.not_lt.mp hi
    rw [List.getElem?_eq_none, List.getElem?_eq_none]
    · exact Nat.le_trans (List.length_take_le _ _) hle
    · rw [List.length_map, Round.length_errands]
      exact hle

namespace Registry

variable {r : Registry} {round : Round} {moves : List Move}

/-- The id of the worker that gets a share of a round, and what the call that hands the share to it
comes to; nothing if there is no such share, or if the call never ends. -/
def report (r : Registry) (round : Round) (i : Nat) : Option (String × Reply) :=
  match round.snapshot[i]?, (split round.task.values round.snapshot.length)[i]? with
  | some h, some slice =>
    (r.call h round.start ⟨slice, round.task.delayMs⟩ round.limit).1.map (r.workerId h, ·)
  | _, _ => none

/-- The partial result for a share, if its call succeeds. -/
def partial? (r : Registry) (round : Round) (i : Nat) : Option PartialResult :=
  match r.report round i with
  | some (id, .ok answer) => some ⟨i, id, answer.sum⟩
  | _ => none

/-- The worker that fails with a share, if its call fails. -/
def failure? (r : Registry) (round : Round) (i : Nat) : Option String :=
  match r.report round i with
  | some (id, .error _) => some id
  | _ => none

/-- With a deadline, every call on a handle that no other call keeps comes to an end. -/
theorem isSome_report_of_deadline {t : Nanos} {i : Nat} (hlimit : round.limit = some t)
    (known : ∀ h ∈ round.snapshot, ∃ handle, r.handles[h]? = some handle ∧ handle.held = false)
    (hi : i < round.count) : (r.report round i).isSome = true := by
  obtain ⟨h, slice, hh, hslice, _⟩ := Round.getElem?_errands hi 0
  obtain ⟨handle, hhandle, hheld⟩ := known h (List.mem_of_getElem? hh)
  rw [report, hh, hslice, hlimit, Option.isSome_map, call_of_handle hhandle]
  exact Handle.isSome_call_of_deadline hheld _

theorem isSome_partial?_of_report {i : Nat} (h : (r.report round i).isSome = true) :
    (r.partial? round i).isSome = !(r.failure? round i).isSome := by
  unfold partial? failure?
  obtain ⟨⟨id, u | answer⟩, hreport⟩ := Option.isSome_iff_exists.mp h <;> rw [hreport] <;> rfl

theorem length_results_dispatched (r : Registry) (moves : List Move) (round : Round) :
    (r.dispatched moves [round]).results.length = round.count := by
  rw [(recorded_dispatched r moves [round]).size, errands_singleton, Round.length_errands]
  rfl

/-- Once all calls of a round over different workers were made, each errand has a result, and it is
what the report says. -/
theorem result_of_complete (distinct : round.snapshot.Nodup)
    (complete : Dispatch.Complete round.count moves) {i : Nat} (hi : i < round.count) :
    ∃ e result, (round.errands 0)[i]? = some e ∧ e.index = i ∧
      (r.dispatched moves [round]).results[i]? = some result ∧
      r.report round i = result.map fun result => (r.workerId e.handle, result.reply) := by
  have hdistinct : ((errands [round]).map (·.handle)).Nodup := by
    rw [errands_singleton, Round.map_handle_errands]
    exact (List.take_sublist _ _).nodup distinct
  have hapart := Dispatch.apart_run (r := r) hdistinct moves
    (complete.nodup_iff.mpr List.nodup_range)
  have hcalled : i ∈ Dispatch.called moves := complete.mem_iff.mpr (List.mem_range.mpr hi)
  obtain ⟨h, slice, hh, hslice, he⟩ := Round.getElem?_errands hi 0
  obtain ⟨result, hresult, hreply⟩ := hapart.replied i _ (errands_singleton round ▸ he) hcalled
  refine ⟨_, result, he, rfl, hresult, ?_⟩
  rw [report, hh, hslice]
  simp only [← hreply, Option.map_map]
  rfl

/-- Place by place, the errands and their results bring in what the reports say. -/
theorem filterMap_of_complete (distinct : round.snapshot.Nodup)
    (complete : Dispatch.Complete round.count moves) :
    ((round.errands 0).zip (r.dispatched moves [round]).results).filterMap r.answerOf =
        (List.range round.count).filterMap (r.partial? round) ∧
      ((round.errands 0).zip (r.dispatched moves [round]).results).filterMap r.failureOf =
        (List.range round.count).filterMap (r.failure? round) := by
  have hlength : ((round.errands 0).zip (r.dispatched moves [round]).results).length =
      round.count := by
    rw [List.length_zip, length_results_dispatched, Round.length_errands]
    exact Nat.min_self _
  have hplace : ∀ i < round.count, ∃ e result,
      ((round.errands 0).zip (r.dispatched moves [round]).results)[i]? = some (e, result) ∧
        e.index = i ∧
        r.report round i = result.map fun result => (r.workerId e.handle, result.reply) := by
    intro i hi
    obtain ⟨e, result, he, hindex, hresult, hreport⟩ :=
      result_of_complete (r := r) distinct complete hi
    exact ⟨e, result, List.getElem?_zip_eq_some.mpr ⟨he, hresult⟩, hindex, hreport⟩
  constructor
  · refine filterMap_eq_of_getElem? hlength fun i hi => ?_
    obtain ⟨e, result, hpair, rfl, hreport⟩ := hplace i hi
    rw [hpair, partial?, hreport]
    obtain _ | ⟨u | answer, finish⟩ := result <;> rfl
  · refine filterMap_eq_of_getElem? hlength fun i hi => ?_
    obtain ⟨e, result, hpair, _, hreport⟩ := hplace i hi
    rw [hpair, failure?, hreport]
    obtain _ | ⟨u | answer, finish⟩ := result <;> rfl

/-- If something is reported of every share, every call has a result. -/
theorem ended_of_reports (distinct : round.snapshot.Nodup)
    (complete : Dispatch.Complete round.count moves)
    (reports : ∀ i < round.count, (r.report round i).isSome = true) :
    ∀ result ∈ (r.dispatched moves [round]).results, result.isSome = true := by
  intro result hmem
  obtain ⟨i, hi⟩ := List.mem_iff_getElem?.mp hmem
  have hlt : i < round.count := by
    rw [← length_results_dispatched r moves round]
    exact (List.getElem?_eq_some_iff.mp hi).1
  obtain ⟨e, result', _, _, hresult, hreport⟩ := result_of_complete (r := r) distinct complete hlt
  obtain rfl := Option.some.inj (hi.symm.trans hresult)
  have hsome := reports i hlt
  rwa [hreport, Option.isSome_map] at hsome

/-- Partial results come in the order of their shares. -/
theorem pairwise_index_partials (r : Registry) (round : Round) :
    (((List.range round.count).filterMap (r.partial? round)).map (·.index)).Pairwise (· < ·) := by
  have hindex : ∀ i p, r.partial? round i = some p → p.index = i := by
    intro i p hp
    unfold partial? at hp
    split at hp
    · exact (Option.some.inj hp).symm ▸ rfl
    · cases hp
  rw [List.pairwise_map, List.pairwise_filterMap]
  refine List.pairwise_lt_range.imp fun {i j} hij p hp q hq => ?_
  rw [hindex i p hp, hindex j q hq]
  exact hij

/-- Every share of a round over different workers whose calls all end is accounted for once: as a
partial result with its number, under the id that its worker is registered with, or as a failure. -/
theorem round_accounts (distinct : round.snapshot.Nodup)
    (known : ∀ h ∈ round.snapshot, ∃ handle, r.handles[h]? = some handle ∧ handle.held = false)
    (ends : round.limit = none → ∀ i < round.count, (r.report round i).isSome = true)
    (complete : Dispatch.Complete round.count moves) :
    ∃ outcome : RoundOutcome, (r.dispatchWith moves [round]).1 = [some outcome] ∧
      outcome.partials = (List.range round.count).filterMap (r.partial? round) ∧
      outcome.failed = (List.range round.count).filterMap (r.failure? round) ∧
      (∀ i < round.count, (r.partial? round i).isSome = !(r.failure? round i).isSome) ∧
      (outcome.partials.map (·.index)).Pairwise (· < ·) ∧
      outcome.partials.length + outcome.failed.length = round.count := by
  have hreports : ∀ i < round.count, (r.report round i).isSome = true := by
    cases hlimit : round.limit with
    | none => exact ends hlimit
    | some t => exact fun i hi => isSome_report_of_deadline hlimit known hi
  have hexactly := fun i hi => isSome_partial?_of_report (hreports i hi)
  obtain ⟨outcome, houtcome, hpartials, hfailed⟩ :=
    outcome_of_ended (ended_of_reports distinct complete hreports)
  obtain ⟨hanswers, hfailures⟩ := filterMap_of_complete (r := r) distinct complete
  rw [hanswers] at hpartials
  rw [hfailures] at hfailed
  refine ⟨outcome, houtcome, hpartials, hfailed, hexactly, ?_, ?_⟩
  · rw [hpartials]
    exact pairwise_index_partials r round
  · have hlength := length_filterMap_add (l := List.range round.count) fun i hi =>
      hexactly i (List.mem_range.mp hi)
    rwa [← hpartials, ← hfailed, List.length_range] at hlength

/-- A worker that follows a script, just registered. -/
def scripted (id : String) (script : List Network.Action) : Handle :=
  .fresh id (.fresh 1000 (Network.Script.worker id script) [] 0)

/-- Seven workers: one adds, one answers under another id, one has been given up, one says what is
no message, one leaves, one never answers, and one more adds. -/
def seven : Registry :=
  ⟨[scripted "adds" [.sum], scripted "poses" [.sumAs "other"], (scripted "lost" []).kill,
    scripted "mumbles" [.send [0, 0, 0, 1, 255] false], scripted "leaves" [.close],
    scripted "hangs" [.hang], scripted "rests" [.sum]], [0, 1, 2, 3, 4, 5, 6]⟩

/-- A round with a share for all of them but the last. -/
def sixShares : Round := ⟨⟨[1, 2, 3, 4, 5, 6], 0⟩, [0, 1, 2, 3, 4, 5, 6], 0, some 50⟩

/-- The calls in some order; not every worker that fails has been taken out yet. -/
def sixCalls : List Move :=
  [.call 5, .call 3, .settle 3, .call 0, .call 1, .call 4, .settle 5, .call 2]

theorem round_accounts_seven : sixShares.snapshot.Nodup ∧ ∃ outcome : RoundOutcome,
    (seven.dispatchWith sixCalls [sixShares]).1 = [some outcome] ∧
      outcome.partials.length + outcome.failed.length = 6 := by
  have distinct : sixShares.snapshot.Nodup := by decide
  have known : ∀ h ∈ sixShares.snapshot,
      ∃ handle, seven.handles[h]? = some handle ∧ handle.held = false := by
    intro h hh
    have hlt : h < 7 := List.mem_range.mp hh
    interval_cases h <;> exact ⟨_, rfl, rfl⟩
  obtain ⟨outcome, houtcome, _, _, _, _, hcount⟩ :=
    round_accounts distinct known nofun
      (show Dispatch.Complete sixShares.count sixCalls by decide)
  exact ⟨distinct, outcome, houtcome, hcount⟩

example : (seven.dispatchWith sixCalls [sixShares]).1.map (·.map fun o => (o.partials, o.failed)) =
    [some ([⟨0, "adds", 1⟩, ⟨1, "poses", 2⟩], ["lost", "mumbles", "leaves", "hangs"])] := by
  decide +kernel

end Registry

end SumCluster
