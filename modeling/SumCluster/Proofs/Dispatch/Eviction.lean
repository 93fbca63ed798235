import SumCluster.Network.Script
import SumCluster.Proofs.Dispatch.Moves
import SumCluster.Proofs.Registry.History

/-!
Who leaves the registry when rounds return. Whatever the snapshots of the rounds and the order of
their moves, it is the handles on which a call has failed, and nobody else. A worker that has
registered again in the meantime has another handle than the one that fails, so it stays, although
its id is among the failed ones.
-/

namespace SumCluster

/-- A part of a list without repetitions is given by who is in it. -/
theorem eq_filter_of_sublist {α : Type} {p : α → Bool} {l l' : List α} (distinct : l.Nodup)
    (hsub : l'.Sublist l) (h : ∀ a ∈ l, a ∈ l' ↔ p a = true) : l' = l.filter p := by
  have hkept : l'.filter p = l' :=
    List.filter_eq_self.mpr fun a ha => (h a (hsub.subset ha)).mp ha
  have hperm : l'.Perm (l.filter p) := by
    refine (List.perm_ext_iff_of_nodup (hsub.nodup distinct) (distinct.filter p)).mpr fun a => ?_
    rw [List.mem_filter]
    exact ⟨fun ha => ⟨hsub.subset ha, (h a (hsub.subset ha)).mp ha⟩, fun ha => (h a ha.1).mpr ha.2⟩
  have hfilter : l'.Sublist (l.filter p) := hkept ▸ hsub.filter p
  exact hfilter.eq_of_length hperm.length_eq

namespace Dispatch

variable {r : Registry} {errands : List Errand} {moves : List Move} {d : Dispatch}
  {h : HandleId} {i : Nat}

/-! ### Calls that have failed -/

/-- The handles on which a call has failed so far. -/
def failing (errands : List Errand) (d : Dispatch) : List HandleId :=
  (d.lost errands).map (·.handle)

theorem mem_failing : h ∈ d.failing errands ↔ ∃ (i : Nat) (e : Errand) (u : Unreachable)
    (t : Nanos), errands[i]? = some e ∧ d.results[i]? = some (some ⟨.error u, t⟩) ∧
      e.handle = h := by
  rw [failing, List.mem_map]
  constructor
  · rintro ⟨e, he, hhandle⟩
    obtain ⟨i, u, t, he, hresult⟩ := mem_lost.mp he
    exact ⟨i, e, u, t, he, hresult, hhandle⟩
  · rintro ⟨i, e, u, t, he, hresult, hhandle⟩
    exact ⟨e, mem_lost.mpr ⟨i, u, t, he, hresult⟩, hhandle⟩

/-- The result of a new call adds its handle, if it is a failure. -/
theorem contains_failing_set (hd : Recorded errands moves d) {e : Errand}
    (he : errands[i]? = some e) (hnew : i ∉ called moves) (registry : Registry)
    (result : Option Result) (h : HandleId) :
    (failing errands ⟨registry, d.results.set i result⟩).contains h =
      ((d.failing errands).contains h ||
        (e.handle == h && Handle.failed (result.map (·.reply)))) := by
  have hlt := hd.lt_length he
  rw [Bool.eq_iff_iff, Bool.or_eq_true, Bool.and_eq_true, beq_iff_eq, List.contains_iff_mem,
    List.contains_iff_mem, mem_failing, mem_failing]
  constructor
  · rintro ⟨j, e', u, t, he', hresult, rfl⟩
    by_cases hij : i = j
    · subst hij
      obtain rfl := Option.some.inj (he.symm.trans he')
      rw [List.getElem?_set_self hlt] at hresult
      obtain rfl := Option.some.inj hresult
      exact .inr ⟨rfl, rfl⟩
    · rw [List.getElem?_set_ne hij] at hresult
      exact .inl ⟨j, e', u, t, he', hresult, rfl⟩
  · rintro (⟨j, e', u, t, he', hresult, rfl⟩ | ⟨rfl, hfailed⟩)
    · have hij : i ≠ j := by
        rintro rfl
        exact hd.pending i hnew _ hresult
      exact ⟨j, e', u, t, he', (List.getElem?_set_ne hij).trans hresult, rfl⟩
    · obtain _ | ⟨u | answer, t⟩ := result
      · cases hfailed
      · exact ⟨i, e, u, t, he, List.getElem?_set_self hlt, rfl⟩
      · cases hfailed

/-! ### Who stays, and who is trusted -/

/-- Where rounds stand that began with registry `r`: the trust has ended in the failing handles and
in no others, and nobody but failing handles has left. -/
structure Spares (r : Registry) (errands : List Errand) (moves : List Move) (d : Dispatch) :
    Prop where
  recorded : Recorded errands moves d
  alive : ∀ h, d.registry.isAlive h = (r.isAlive h && !(d.failing errands).contains h)
  stays : ∀ h ∈ r.members, h ∉ d.failing errands → h ∈ d.registry.members

theorem spares_begin (r : Registry) (errands : List Errand) :
    Spares r errands [] (begin r errands) := by
  have hnobody : (begin r errands).failing errands = [] := by
    refine List.eq_nil_iff_forall_not_mem.mpr fun h hh => ?_
    obtain ⟨i, e, u, t, _, hresult, _⟩ := mem_failing.mp hh
    exact (recorded_begin r errands).pending i List.not_mem_nil _ hresult
  refine ⟨recorded_begin r errands, fun h => ?_, fun h hm _ => hm⟩
  rw [hnobody]
  exact (Bool.and_true _).symm

/-- A call ends the trust in its handle exactly if the handle is failing from then on. -/
theorem Spares.step_call (hd : Spares r errands moves d) (hnew : i ∉ called moves) :
    Spares r errands (moves ++ [.call i]) (d.step errands (.call i)) := by
  have hrecorded := hd.recorded.step (.call i)
  cases he : errands[i]? with
  | none =>
    rw [step_call_of_none he] at hrecorded ⊢
    exact ⟨hrecorded, hd.alive, hd.stays⟩
  | some e =>
    have hfailing := contains_failing_set hd.recorded he hnew
      (d.registry.call e.handle e.start e.request e.limit).2
      ((d.registry.call e.handle e.start e.request e.limit).1.map fun reply =>
        ⟨reply, (d.registry.call e.handle e.start e.request e.limit).2.clock e.handle⟩)
    simp only [Option.map_map, Function.comp_def, Option.map_id'] at hfailing
    rw [Dispatch.step_call he] at hrecorded ⊢
    refine ⟨hrecorded, fun h => ?_, fun h hm hn => ?_⟩
    · rw [Registry.isAlive_call, hd.alive, hfailing, Bool.not_or, Bool.not_and, Bool.and_assoc]
      rfl
    · rw [← List.contains_iff_mem, hfailing, Bool.or_eq_true, not_or] at hn
      rw [Registry.members_call]
      exact hd.stays h hm fun hh => hn.1 (List.contains_iff_mem.mpr hh)

/-- Settling takes out a failing handle or nobody. -/
theorem Spares.step_settle (hd : Spares r errands moves d) (i : Nat) :
    Spares r errands (moves ++ [.settle i]) (d.step errands (.settle i)) := by
  have hrecorded := hd.recorded.step (.settle i)
  rcases Dispatch.step_settle errands d i with ⟨e, u, t, he, hresult, hstep⟩ | hstep
  · have hfailing : e.handle ∈ d.failing errands := mem_failing.mpr ⟨i, e, u, t, he, hresult, rfl⟩
    rw [hstep] at hrecorded ⊢
    refine ⟨hrecorded, fun h => ?_, fun h hm hn => ?_⟩
    · -- The trust in the failing handle has ended with its call already.
      refine (Registry.isAlive_kill d.registry e.handle h).trans ?_
      change _ = (r.isAlive h && !(d.failing errands).contains h)
      rw [hd.alive, Bool.and_assoc]
      by_cases hne : e.handle = h
      · rw [← hne, List.contains_iff_mem.mpr hfailing]
        rfl
      · rw [bne_iff_ne.mpr hne, Bool.and_true]
    · have hne : h ≠ e.handle := by
        rintro rfl
        exact hn hfailing
      exact (List.mem_erase_of_ne hne).mpr (hd.stays h hm hn)
  · rw [hstep] at hrecorded ⊢
    exact ⟨hrecorded, hd.alive, hd.stays⟩

theorem spares_run (r : Registry) (errands : List Errand) (moves : List Move)
    (once : (called moves).Nodup) :
    Spares r errands moves ((begin r errands).run errands moves) :=
  run_induction (spares_begin r errands) (fun _ _ _ hd hnew => hd.step_call hnew)
    (fun _ _ i hd => hd.step_settle i) moves once

/-! ### Who leaves -/

/-- A failure that is settled takes its handle out for good. -/
theorem not_mem_of_settled (distinct : r.members.Nodup) (once : (called moves).Nodup) {e : Errand}
    {u : Unreachable} {t : Nanos} (he : errands[i]? = some e)
    (hresult : ((begin r errands).run errands moves).results[i]? = some (some ⟨.error u, t⟩))
    (settled : [Move.call i, .settle i].Sublist moves) :
    e.handle ∉ ((begin r errands).run errands moves).registry.members := by
  obtain ⟨first, rest, rfl, hcall, hsettle⟩ := List.cons_sublist_iff.mp settled
  obtain ⟨between, later, rfl⟩ := List.append_of_mem (List.singleton_sublist.mp hsettle)
  have hlater : i ∉ called (.settle i :: later) := by
    rw [called, List.filterMap_append] at once
    intro hi
    refine (List.nodup_append'.mp once).2.2 (mem_called.mpr hcall) ?_
    exact mem_called.mpr (List.mem_append_right _ (mem_called.mp hi))
  rw [← List.append_assoc, run_append] at hresult ⊢
  -- The failure was there when it was settled, since its call was not made again.
  rw [result_run _ hlater] at hresult
  generalize hd : (begin r errands).run errands (first ++ between) = d at *
  have hmembers : d.registry.members.Nodup :=
    hd ▸ (declines_run (first ++ between) (begin r errands)).members.nodup distinct
  intro hm
  have hstill := (declines_run later (d.step errands (.settle i))).members.subset hm
  rw [step_settle_of_failed he hresult] at hstill
  exact hmembers.not_mem_erase hstill

/-- Moves that make each of some calls once, and settle it afterwards. -/
structure Finished (count : Nat) (moves : List Move) : Prop where
  complete : Complete count moves
  settled : ∀ i < count, [Move.call i, .settle i].Sublist moves

/-- At the end the members are those on whom no call has failed. -/
theorem members_run (distinct : r.members.Nodup) (finished : Finished errands.length moves) :
    ((begin r errands).run errands moves).registry.members =
      r.members.filter (· ∉ ((begin r errands).run errands moves).failing errands) := by
  have once : (called moves).Nodup := finished.complete.nodup_iff.mpr List.nodup_range
  have hdeclines : r.Declines ((begin r errands).run errands moves).registry :=
    declines_run moves (begin r errands)
  refine eq_filter_of_sublist distinct hdeclines.members fun h hm => ?_
  rw [decide_eq_true_eq]
  constructor
  · intro hstill hfailing
    obtain ⟨i, e, u, t, he, hresult, rfl⟩ := mem_failing.mp hfailing
    have hlt : i < errands.length := (List.getElem?_eq_some_iff.mp he).1
    exact not_mem_of_settled distinct once he hresult (finished.settled i hlt) hstill
  · exact (spares_run r errands moves once).stays h hm

end Dispatch

/-! ### Rounds that have returned -/

namespace Registry

variable {r : Registry} {rounds : List Round} {moves : List Move}

/-- The handles on which a call of some rounds fails. -/
def failing (r : Registry) (moves : List Move) (rounds : List Round) : List HandleId :=
  (r.dispatched moves rounds).failing (errands rounds)

/-- A failing handle is from the snapshot of a round that names its id among the failed ones. -/
theorem named_of_failing {h : HandleId} (hf : h ∈ r.failing moves rounds) :
    ∃ (i : Nat) (round : Round), rounds[i]? = some round ∧ h ∈ round.snapshot ∧
      ∀ outcome : RoundOutcome, (r.dispatchWith moves rounds).1[i]? = some (some outcome) →
        r.workerId h ∈ outcome.failed := by
  obtain ⟨k, e, u, t, he, hresult, rfl⟩ := Dispatch.mem_failing.mp hf
  obtain ⟨i, round, hround, hown⟩ := of_mem_errands (List.mem_of_getElem? he)
  have hsnapshot : e.handle ∈ round.snapshot := by
    obtain ⟨j, p, h, _, hh, rfl⟩ := Round.of_mem_errands hown
    exact List.mem_of_getElem? hh
  refine ⟨i, round, hround, hsnapshot, fun outcome houtcome => ?_⟩
  rw [getElem?_dispatchWith hround] at houtcome
  rw [(RoundOutcome.eq_of_collect (Option.some.inj houtcome)).2, List.nil_append]
  refine List.mem_filterMap.mpr ⟨(e, some ⟨.error u, t⟩), List.mem_filter.mpr ⟨?_, ?_⟩, ?_⟩
  · exact List.mem_of_getElem? (List.getElem?_zip_eq_some.mpr ⟨he, hresult⟩)
  · exact decide_eq_true (Round.round_of_mem_errands hown)
  · exact congrArg some ((declines_dispatched r moves rounds).workerId e.handle)

/-- When rounds have returned, the registry has lost exactly the handles on which a call has failed,
and these are dead; the other members keep their order, and all other handles their trust. So a
worker that has registered again stays, although the id that it has is among the failed ones. -/
theorem rounds_evict_failing (reachable : r.Reachable)
    (finished : Dispatch.Finished (errands rounds).length moves) :
    (r.dispatchWith moves rounds).2.members =
        r.members.filter (· ∉ r.failing moves rounds) ∧
      (∀ h ∈ r.failing moves rounds, (r.dispatchWith moves rounds).2.isAlive h = false) ∧
      (∀ h ∉ r.failing moves rounds, (r.dispatchWith moves rounds).2.isAlive h = r.isAlive h) ∧
      ∀ stale ∈ r.failing moves rounds, ∀ newer ∉ r.failing moves rounds,
        r.workerId newer = r.workerId stale → r.isAlive newer = true →
          newer ∈ (r.dispatchWith moves rounds).2.members ∧
          (r.dispatchWith moves rounds).2.isAlive newer = true ∧
          ∃ (i : Nat) (round : Round), rounds[i]? = some round ∧ stale ∈ round.snapshot ∧
            ∀ outcome : RoundOutcome, (r.dispatchWith moves rounds).1[i]? = some (some outcome) →
              r.workerId newer ∈ outcome.failed := by
  have hr := reachable.consistent
  have once : (Dispatch.called moves).Nodup := finished.complete.nodup_iff.mpr List.nodup_range
  have hmembers : (r.dispatchWith moves rounds).2.members =
      r.members.filter (· ∉ r.failing moves rounds) :=
    Dispatch.members_run hr.sound.distinct finished
  have halive : ∀ h, (r.dispatchWith moves rounds).2.isAlive h =
      (r.isAlive h && !(r.failing moves rounds).contains h) :=
    (Dispatch.spares_run r (errands rounds) moves once).alive
  have hothers : ∀ h ∉ r.failing moves rounds,
      (r.dispatchWith moves rounds).2.isAlive h = r.isAlive h := by
    intro h hn
    rw [halive, Bool.eq_false_iff.mpr (mt List.contains_iff_mem.mp hn)]
    exact Bool.and_true _
  refine ⟨hmembers, fun h hf => ?_, hothers, fun stale hstale newer hnewer hid ha => ?_⟩
  · rw [halive, List.contains_iff_mem.mpr hf]
    exact Bool.and_false _
  · refine ⟨?_, (hothers newer hnewer).trans ha, ?_⟩
    · rw [hmembers]
      exact List.mem_filter.mpr ⟨hr.trusted newer ha, decide_eq_true hnewer⟩
    · rw [hid]
      exact named_of_failing hstale

/-- Two workers register, and the first one registers again. The second one leaves as soon as it
gets a subtask. -/
def reconnecting : List Act :=
  [("a", []), ("b", [.close]), ("a", [])].map fun (id, script) =>
    .register id (.fresh 1000 (Network.Script.worker id script) [] 0)

/-- A round over the workers as they were before that, and one over those that there are then. -/
def crossing : List Round :=
  [⟨⟨[1, 2], 0⟩, [0, 1], 0, none⟩, ⟨⟨[3, 4], 0⟩, [2, 1], 0, none⟩]

/-- The moves of both rounds in some order. -/
def crossed : List Move :=
  [.call 2, .call 1, .call 0, .settle 0, .call 3, .settle 3, .settle 2, .settle 1]

theorem rounds_evict_failing_reconnecting :
    0 ∈ (after reconnecting).failing crossed crossing ∧
      ((after reconnecting).dispatchWith crossed crossing).2.members = [2] ∧
      ((after reconnecting).dispatchWith crossed crossing).2.isAlive 2 = true := by
  have finished : Dispatch.Finished (errands crossing).length crossed :=
    ⟨by decide, by decide⟩
  have hstale : 0 ∈ (after reconnecting).failing crossed crossing := by decide +kernel
  have hnewer : 2 ∉ (after reconnecting).failing crossed crossing := by decide +kernel
  obtain ⟨hmembers, _, _, hreturned⟩ := rounds_evict_failing ⟨reconnecting, rfl⟩ finished
  have hstays := hreturned 0 hstale 2 hnewer (by decide +kernel) (by decide +kernel)
  exact ⟨hstale, hmembers.trans (by decide +kernel), hstays.2.1⟩

example : ((after reconnecting).dispatchWith crossed crossing).1.map (·.map (·.failed)) =
    [some ["a", "b"], some ["b"]] := by decide +kernel

end Registry

end SumCluster
