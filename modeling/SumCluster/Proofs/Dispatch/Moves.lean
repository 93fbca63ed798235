import Mathlib.Data.List.Induction
import SumCluster.Proofs.Dispatch.Outcome
import SumCluster.Proofs.Registry.Trust

/-!
What one move of rounds does, whatever the workers do. A call touches its own handle and records its
result, and settling takes out the worker of a call that has failed. So results come from calls that
were made, and a round that is over is put together from them.
-/

namespace SumCluster

open Wire (SubtaskRequest)

/-! ### Calls and other handles -/

namespace Registry

variable {r r' : Registry} {h j : HandleId}

theorem handles_call_of_ne (hne : h ≠ j) (start : Nanos) (q : SubtaskRequest)
    (limit : Option Nanos) : (r.call h start q limit).2.handles[j]? = r.handles[j]? := by
  unfold call
  split
  · exact handles_update_of_ne hne _
  · rfl

/-- What a call comes to depends on its handle alone. -/
theorem call_congr (hh : r.handles[h]? = r'.handles[h]?) (start : Nanos) (q : SubtaskRequest)
    (limit : Option Nanos) : (r.call h start q limit).1 = (r'.call h start q limit).1 := by
  unfold call
  rw [hh]
  split <;> rfl

end Registry

namespace Dispatch

variable {r : Registry} {errands : List Errand} {moves : List Move} {d : Dispatch} {i : Nat}
  {e : Errand}

/-! ### One move -/

theorem run_concat (errands : List Errand) (moves : List Move) (m : Move) (d : Dispatch) :
    d.run errands (moves ++ [m]) = (d.run errands moves).step errands m := by
  simp [run]

theorem run_append (errands : List Errand) (moves later : List Move) (d : Dispatch) :
    d.run errands (moves ++ later) = (d.run errands moves).run errands later :=
  List.foldl_append

theorem called_concat (moves : List Move) (m : Move) :
    called (moves ++ [m]) = called moves ++ m.call?.toList := by
  cases m <;> simp [called, Move.call?, List.filterMap_cons]

theorem mem_called_call {j : Nat} :
    j ∈ called (moves ++ [.call i]) ↔ j ∈ called moves ∨ j = i := by
  rw [called_concat, List.mem_append]
  exact or_congr_right List.mem_singleton

theorem called_settle (moves : List Move) (i : Nat) :
    called (moves ++ [.settle i]) = called moves := by
  rw [called_concat]
  exact List.append_nil _

theorem step_call (he : errands[i]? = some e) (d : Dispatch) : d.step errands (.call i) =
    ⟨(d.registry.call e.handle e.start e.request e.limit).2,
      d.results.set i ((d.registry.call e.handle e.start e.request e.limit).1.map fun reply =>
        ⟨reply, (d.registry.call e.handle e.start e.request e.limit).2.clock e.handle⟩)⟩ := by
  rw [step, he]

theorem step_call_of_none (he : errands[i]? = none) (d : Dispatch) :
    d.step errands (.call i) = d := by
  rw [step, he]

/-- The worker of a call that has failed is taken out. -/
theorem step_settle_of_failed {u : Unreachable} {t : Nanos} (he : errands[i]? = some e)
    (hresult : d.results[i]? = some (some ⟨.error u, t⟩)) :
    d.step errands (.settle i) = { d with registry := (d.registry.deregister e.handle).2 } := by
  rw [step, he, hresult]

/-- Settling takes out a worker whose call has failed, or does nothing. -/
theorem step_settle (errands : List Errand) (d : Dispatch) (i : Nat) :
    (∃ e u t, errands[i]? = some e ∧ d.results[i]? = some (some ⟨.error u, t⟩) ∧
      d.step errands (.settle i) = { d with registry := (d.registry.deregister e.handle).2 }) ∨
    d.step errands (.settle i) = d := by
  simp only [step]
  split
  · rename_i e u t he hresult
    exact .inl ⟨e, u, t, he, hresult, rfl⟩
  · exact .inr rfl

theorem results_settle (errands : List Errand) (d : Dispatch) (i : Nat) :
    (d.step errands (.settle i)).results = d.results := by
  rcases step_settle errands d i with ⟨e, u, t, _, _, hstep⟩ | hstep <;> rw [hstep]

/-! ### Results -/

/-- There is room for the result of each errand, and results come from calls that were made. -/
structure Recorded (errands : List Errand) (moves : List Move) (d : Dispatch) : Prop where
  size : d.results.length = errands.length
  pending : ∀ i, i ∉ called moves → ∀ result, d.results[i]? ≠ some (some result)

theorem recorded_begin (r : Registry) (errands : List Errand) :
    Recorded errands [] (begin r errands) := by
  refine ⟨by simp [begin], fun i _ result h => ?_⟩
  have hmem := List.mem_of_getElem? h
  simp [begin] at hmem

theorem Recorded.step (hd : Recorded errands moves d) (m : Move) :
    Recorded errands (moves ++ [m]) (d.step errands m) := by
  cases m with
  | call i =>
    cases he : errands[i]? with
    | none =>
      rw [step_call_of_none he]
      refine ⟨hd.size, fun j hj => hd.pending j fun hm => hj ?_⟩
      exact mem_called_call.mpr (.inl hm)
    | some e =>
      rw [step_call he]
      refine ⟨by simp [hd.size], fun j hj => ?_⟩
      rw [mem_called_call, not_or] at hj
      rw [List.getElem?_set_ne (Ne.symm hj.2)]
      exact hd.pending j hj.1
  | settle i =>
    refine ⟨by rw [results_settle, hd.size], fun j hj => ?_⟩
    rw [called_settle] at hj
    rw [results_settle]
    exact hd.pending j hj

theorem Recorded.lt_length (hd : Recorded errands moves d) (he : errands[i]? = some e) :
    i < d.results.length := by
  rw [hd.size]
  exact (List.getElem?_eq_some_iff.mp he).1

/-- The result of a call stays while the call is not made again. -/
theorem result_run (d : Dispatch) (hnew : i ∉ called moves) :
    (d.run errands moves).results[i]? = d.results[i]? := by
  induction moves using List.reverseRecOn with
  | nil => rfl
  | append_singleton moves m ih =>
    rw [called_concat, List.mem_append, not_or] at hnew
    rw [run_concat, ← ih hnew.1]
    cases m with
    | call j =>
      have hij : j ≠ i := by
        rintro rfl
        exact hnew.2 (List.mem_singleton.mpr rfl)
      cases he : errands[j]? with
      | none => rw [step_call_of_none he]
      | some e =>
        rw [step_call he]
        exact List.getElem?_set_ne hij
    | settle j => rw [results_settle]

/-- What each move keeps holds after moves that make no call twice. -/
theorem run_induction {P : List Move → Dispatch → Prop} (hbegin : P [] (begin r errands))
    (hcall : ∀ moves d i, P moves d → i ∉ called moves →
      P (moves ++ [.call i]) (d.step errands (.call i)))
    (hsettle : ∀ moves d i, P moves d → P (moves ++ [.settle i]) (d.step errands (.settle i)))
    (moves : List Move) (once : (called moves).Nodup) :
    P moves ((begin r errands).run errands moves) := by
  induction moves using List.reverseRecOn with
  | nil => exact hbegin
  | append_singleton moves m ih =>
    rw [run_concat]
    rw [called_concat] at once
    have hsofar := ih (List.nodup_append'.mp once).1
    cases m with
    | call i =>
      refine hcall moves _ i hsofar fun hi => ?_
      exact (List.nodup_append'.mp once).2.2 hi (List.mem_singleton.mpr rfl)
    | settle i => exact hsettle moves _ i hsofar

theorem recorded_run (r : Registry) (errands : List Errand) (moves : List Move) :
    Recorded errands moves ((begin r errands).run errands moves) := by
  induction moves using List.reverseRecOn with
  | nil => exact recorded_begin r errands
  | append_singleton moves m ih =>
    rw [run_concat]
    exact ih.step m

/-- An errand whose call has failed. -/
def loss? : Errand × Option Result → Option Errand
  | (e, some ⟨.error _, _⟩) => some e
  | _ => none

/-- The errands whose calls have failed. -/
def lost (errands : List Errand) (d : Dispatch) : List Errand :=
  (errands.zip d.results).filterMap loss?

theorem mem_lost : e ∈ d.lost errands ↔ ∃ (i : Nat) (u : Unreachable) (t : Nanos),
    errands[i]? = some e ∧ d.results[i]? = some (some ⟨.error u, t⟩) := by
  rw [lost, List.mem_filterMap]
  constructor
  · rintro ⟨⟨e', result⟩, hmem, hloss⟩
    obtain ⟨i, hi⟩ := List.mem_iff_getElem?.mp hmem
    obtain ⟨he, hresult⟩ := List.getElem?_zip_eq_some.mp hi
    obtain _ | ⟨u | answer, t⟩ := result <;> cases hloss
    exact ⟨i, u, t, he, hresult⟩
  · rintro ⟨i, u, t, he, hresult⟩
    exact ⟨(e, some ⟨.error u, t⟩),
      List.mem_of_getElem? (List.getElem?_zip_eq_some.mpr ⟨he, hresult⟩), rfl⟩

end Dispatch

/-! ### One round -/

namespace Registry

variable {r : Registry} {round : Round} {moves : List Move}

theorem recorded_dispatched (r : Registry) (moves : List Move) (rounds : List Round) :
    Dispatch.Recorded (errands rounds) moves (r.dispatched moves rounds) :=
  Dispatch.recorded_run r (errands rounds) moves

theorem declines_dispatched (r : Registry) (moves : List Move) (rounds : List Round) :
    r.Declines (r.dispatched moves rounds).registry :=
  Dispatch.declines_run moves (.begin r (errands rounds))

/-- The workers have the ids that they had before. -/
theorem Declines.answerOf {r' : Registry} (hd : r.Declines r') (p : Errand × Option Result) :
    r'.answerOf p = r.answerOf p ∧ r'.failureOf p = r.failureOf p := by
  obtain ⟨e, _ | ⟨u | answer, finish⟩⟩ := p <;>
    simp [Registry.answerOf, Registry.failureOf, hd.workerId]

/-- A round that runs alone has all the errands. -/
theorem filter_zip_errands (round : Round) (number : Nat) (results : List (Option Result)) :
    ((round.errands number).zip results).filter (fun (e, _) => e.round = number) =
      (round.errands number).zip results := by
  refine List.filter_eq_self.mpr fun p hp => ?_
  exact decide_eq_true (Round.round_of_mem_errands (List.of_mem_zip hp).1)

/-- When all calls of a round have ended, its outcome is what they bring in. -/
theorem outcome_of_ended
    (ended : ∀ result ∈ (r.dispatched moves [round]).results, result.isSome = true) :
    ∃ outcome : RoundOutcome, (r.dispatchWith moves [round]).1 = [some outcome] ∧
      outcome.partials =
        ((round.errands 0).zip (r.dispatched moves [round]).results).filterMap r.answerOf ∧
      outcome.failed =
        ((round.errands 0).zip (r.dispatched moves [round]).results).filterMap r.failureOf := by
  have hdeclines := declines_dispatched r moves [round]
  have hdispatch : (r.dispatchWith moves [round]).1 =
      [RoundOutcome.ofDispatch (r.dispatched moves [round]) (errands [round]) round 0] := rfl
  rw [hdispatch, RoundOutcome.ofDispatch, errands_singleton]
  generalize r.dispatched moves [round] = d at *
  have hended : ∀ p ∈ (round.errands 0).zip d.results, p.2.isSome = true := fun p hp =>
    ended p.2 (List.of_mem_zip hp).2
  obtain ⟨elapsed, heq⟩ :=
    RoundOutcome.collect_of_ended d.registry round.start ⟨[], [], 0⟩ hended
  rw [filter_zip_errands, heq]
  refine ⟨_, rfl, ?_, ?_⟩
  · exact List.filterMap_congr fun p _ => (hdeclines.answerOf p).1
  · exact List.filterMap_congr fun p _ => (hdeclines.answerOf p).2

end Registry

end SumCluster
