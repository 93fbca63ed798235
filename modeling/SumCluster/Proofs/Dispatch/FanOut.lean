import SumCluster.Proofs.Dispatch.Accounting
import SumCluster.Proofs.Dispatch.Concurrent
import SumCluster.Proofs.Registry.Lifetime

/-!
What the workers of a round are sent. A call hands over its subtask exactly if the handle is alive
and the worker is still there, and the calls of a round are on different handles. Main statement:
whatever the order of the calls, each such worker gets its share once and everybody else gets
nothing; so a round over at least one worker, all of them alive and there, hands out every value
once and in order.
-/

namespace SumCluster

open Handle (framesOf)
open Network (Link Script.message?)
open Wire (Message SubtaskRequest)

/-! ### One call -/

/-- A far end reads back the message of a frame. -/
theorem Network.Script.message?_frame {m : Message} (h : m.toBody.length ≤ Wire.Frame.longest) :
    message? m.frame = some m := by
  have hdrop : m.frame.drop Wire.Frame.headerSize = m.toBody :=
    List.drop_left' (Wire.length_bigEndian _ _)
  rw [message?, hdrop, Message.ofBody_toBody_of_le h]

namespace Handle

variable {h : Handle} {request : SubtaskRequest}

/-- A call that begins at a moment reaches the worker: the handle is alive, and the worker has not
disappeared by then. -/
def Reached (h : Handle) (t : Nanos) : Prop :=
  h.alive = true ∧ (h.link.advance t).settle.gone = false

instance (h : Handle) (t : Nanos) : Decidable (h.Reached t) :=
  inferInstanceAs (Decidable (h.alive = true ∧ (h.link.advance t).settle.gone = false))

theorem taken_exchange (fits : (Message.subtaskRequest request).toBody.length ≤ h.link.limit)
    (limit : Option Nanos) : (h.exchange request limit).2.link.taken =
      h.link.taken ++ if h.link.settle.gone = false then framesOf [request] else [] := by
  cases hgone : h.link.settle.gone with
  | true =>
    rw [exchange_of_gone fits hgone, if_neg (by decide), List.append_nil]
    exact Link.taken_settle h.link
  | false =>
    rw [exchange_of_sent fits hgone, if_pos rfl, link_hearing]
    exact taken_recv_sent h request _

/-- What a call hands over: its subtask if it reaches the worker, and nothing otherwise. -/
theorem taken_call (free : h.held = false)
    (fits : (Message.subtaskRequest request).toBody.length ≤ h.link.limit) (start : Nanos)
    (limit : Option Nanos) : (h.call start request limit).2.link.taken =
      h.link.taken ++ if h.Reached start then framesOf [request] else [] := by
  cases halive : h.alive with
  | true =>
    have hexchange := taken_exchange (h := { h with link := h.link.advance start }) fits limit
    rw [call_of_usable ⟨halive, free⟩, hexchange]
    simp only [Reached, halive, true_and]
    rfl
  | false =>
    have hmissed : ¬h.Reached start := fun hr => by
      cases halive.symm.trans hr.1
    rw [call_of_dead free halive, if_neg hmissed, List.append_nil]
    rfl

end Handle

/-! ### All calls -/

namespace Registry

variable {r : Registry} {h : HandleId}

/-- The connection of a handle. -/
def link? (r : Registry) (h : HandleId) : Option Link := r.handles[h]?.map (·.link)

theorem link?_deregister (r : Registry) (h j : HandleId) :
    (r.deregister h).2.link? j = r.link? j := by
  change ((r.kill h).handles[j]?).map _ = _
  rw [kill, handles_update, link?]
  split
  · rw [Option.map_map]
    rfl
  · rfl

theorem link?_call_of_ne {j : HandleId} (hne : h ≠ j) (start : Nanos) (q : SubtaskRequest)
    (limit : Option Nanos) : (r.call h start q limit).2.link? j = r.link? j := by
  rw [link?, handles_call_of_ne hne, link?]

/-- What a call leaves of its connection depends on its handle alone. -/
theorem link?_call_congr {r' : Registry} (hh : r.handles[h]? = r'.handles[h]?) (start : Nanos)
    (q : SubtaskRequest) (limit : Option Nanos) :
    (r.call h start q limit).2.link? h = (r'.call h start q limit).2.link? h := by
  cases hr : r'.handles[h]? with
  | none =>
    rw [call, call, hh, hr]
    simp only [link?, hh]
  | some handle =>
    rw [call_of_handle (hh.trans hr), call_of_handle hr, link?, link?,
      handles_update_self (hh.trans hr), handles_update_self hr]

end Registry

namespace Dispatch

variable {r : Registry} {errands : List Errand} {moves : List Move} {d : Dispatch}

/-- Where errands to different handles stand on the connections: nobody who has no errand is
touched, and a connection on which a call was made is as that call has left it. -/
structure Handed (r : Registry) (errands : List Errand) (moves : List Move) (d : Dispatch) :
    Prop extends Apart r errands moves d where
  others : ∀ h, h ∉ errands.map (·.handle) → d.registry.link? h = r.link? h
  called : ∀ (i : Nat) e, errands[i]? = some e → i ∈ called moves → d.registry.link? e.handle =
    (r.call e.handle e.start e.request e.limit).2.link? e.handle

theorem handed_begin (r : Registry) (errands : List Errand) :
    Handed r errands [] (begin r errands) :=
  ⟨⟨recorded_begin r errands, fun _ _ _ _ => rfl, nofun⟩, fun _ _ => rfl, nofun⟩

theorem Handed.step_call (hd : Handed r errands moves d) {i : Nat}
    (distinct : (errands.map (·.handle)).Nodup) (hnew : i ∉ Dispatch.called moves) :
    Handed r errands (moves ++ [.call i]) (d.step errands (.call i)) := by
  refine ⟨hd.toApart.step_call distinct hnew, ?_, ?_⟩
  · intro h hh
    cases he : errands[i]? with
    | none => rw [step_call_of_none he, hd.others h hh]
    | some e =>
      have hne : e.handle ≠ h := by
        rintro rfl
        exact hh (List.mem_map_of_mem (List.mem_of_getElem? he))
      rw [Dispatch.step_call he, Registry.link?_call_of_ne hne, hd.others h hh]
  · intro j e' hj hm
    cases he : errands[i]? with
    | none =>
      rw [step_call_of_none he]
      rcases mem_called_call.mp hm with hm | rfl
      · exact hd.called j e' hj hm
      · cases he.symm.trans hj
    | some e =>
      rw [Dispatch.step_call he]
      by_cases hij : i = j
      · subst hij
        obtain rfl := Option.some.inj (he.symm.trans hj)
        -- The connection was not touched before, so the call finds it as the round did.
        exact Registry.link?_call_congr (hd.untouched i e he hnew) ..
      · rw [Registry.link?_call_of_ne (handle_ne distinct he hj hij)]
        exact hd.called j e' hj ((mem_called_call.mp hm).resolve_right (Ne.symm hij))

/-- Taking a worker out leaves its connection as it is. -/
theorem link?_settle (errands : List Errand) (d : Dispatch) (i : Nat) (h : HandleId) :
    (d.step errands (.settle i)).registry.link? h = d.registry.link? h := by
  rcases step_settle errands d i with ⟨e, u, t, _, _, hstep⟩ | hstep
  · rw [hstep]
    exact Registry.link?_deregister ..
  · rw [hstep]

theorem Handed.step_settle (hd : Handed r errands moves d) (i : Nat)
    (distinct : (errands.map (·.handle)).Nodup) :
    Handed r errands (moves ++ [.settle i]) (d.step errands (.settle i)) := by
  refine ⟨hd.toApart.step_settle i distinct, fun h hh => ?_, fun j e hj hm => ?_⟩
  · rw [link?_settle, hd.others h hh]
  · rw [called_settle] at hm
    rw [link?_settle]
    exact hd.called j e hj hm

theorem handed_run (distinct : (errands.map (·.handle)).Nodup) (moves : List Move)
    (once : (Dispatch.called moves).Nodup) :
    Handed r errands moves ((begin r errands).run errands moves) :=
  run_induction (handed_begin r errands) (fun _ _ _ hd hnew => hd.step_call distinct hnew)
    (fun _ _ i hd => hd.step_settle i distinct) moves once

end Dispatch

/-! ### What arrives -/

/-- A list that is put together place by place. -/
theorem flatMap_eq_of_getElem? {α β : Type} {f : α → List β} {as : List α} {bs : List β}
    (hlength : bs.length ≤ as.length)
    (h : ∀ (i : Nat) a, as[i]? = some a → f a = bs[i]?.toList) : as.flatMap f = bs := by
  induction as generalizing bs with
  | nil =>
    obtain rfl := List.length_eq_zero_iff.mp (Nat.le_zero.mp hlength)
    rfl
  | cons a as ih =>
    have hhead := h 0 a rfl
    cases bs with
    | nil =>
      have hrest : as.flatMap f = [] := ih (Nat.zero_le _) fun i a' ha => h (i + 1) a' ha
      rw [List.flatMap_cons, hhead, hrest]
      rfl
    | cons b bs =>
      have hrest := ih (Nat.le_of_succ_le_succ hlength) fun i a' ha => h (i + 1) a' ha
      rw [List.flatMap_cons, hhead, hrest]
      rfl

namespace Registry

variable {r r' : Registry} {round : Round} {moves : List Move} {h : HandleId}

/-- The messages that the far end of a handle receives between two registries. -/
def received (r r' : Registry) (h : HandleId) : List (Option Message) :=
  match r.link? h, r'.link? h with
  | some before, some after =>
    (after.taken.drop before.taken.length).map Network.Script.message?
  | _, _ => []

/-- A call on a handle that begins at a moment reaches its worker. -/
def Reaches (r : Registry) (h : HandleId) (t : Nanos) : Prop :=
  ∃ handle, r.handles[h]? = some handle ∧ handle.Reached t

/-- The subtasks of a round fit the frames of the workers that they are for. -/
def Carries (r : Registry) (round : Round) : Prop :=
  ∀ (i : Nat) h q handle, round.snapshot[i]? = some h → round.share? i = some q →
    r.handles[h]? = some handle →
    (Message.subtaskRequest q).toBody.length ≤ min handle.link.limit Wire.Frame.longest

/-- A connection that is as it was has brought nothing. -/
theorem received_of_eq (heq : r'.link? h = r.link? h) : r.received r' h = [] := by
  rw [received, heq]
  cases r.link? h with
  | none => rfl
  | some l => simp

/-- A connection on which one call was made has brought its subtask, if the call reached the
worker. -/
theorem received_of_call {handle : Handle} {q : SubtaskRequest} {start : Nanos}
    {limit : Option Nanos} (hh : r.handles[h]? = some handle) (free : handle.held = false)
    (fits : (Message.subtaskRequest q).toBody.length ≤
      min handle.link.limit Wire.Frame.longest)
    (heq : r'.link? h = (r.call h start q limit).2.link? h) :
    r.received r' h =
      if handle.Reached start then [some (.subtaskRequest q)] else [] := by
  have hbefore : r.link? h = some handle.link := by
    rw [link?, hh]
    rfl
  have hafter : r'.link? h = some (handle.call start q limit).2.link := by
    rw [heq, call_of_handle hh, link?, handles_update_self hh]
    rfl
  have htaken := Handle.taken_call free (Nat.le_trans fits (Nat.min_le_left _ _)) start limit
  have hmessage := Network.Script.message?_frame (Nat.le_trans fits (Nat.min_le_right _ _))
  rw [received, hbefore, hafter]
  simp only [htaken, List.drop_left]
  split
  · simp only [framesOf, List.map_cons, List.map_nil, hmessage]
  · rfl

theorem handed_dispatched (distinct : round.snapshot.Nodup)
    (complete : Dispatch.Complete round.count moves) :
    Dispatch.Handed r (errands [round]) moves (r.dispatched moves [round]) := by
  refine Dispatch.handed_run ?_ moves (complete.nodup_iff.mpr List.nodup_range)
  rw [errands_singleton, Round.map_handle_errands]
  exact (List.take_sublist _ _).nodup distinct

/-- The worker at a place that has a share receives it, if its call reaches the worker. -/
theorem received_of_lt (distinct : round.snapshot.Nodup) (carries : r.Carries round)
    (complete : Dispatch.Complete round.count moves) {i : Nat} {handle : Handle}
    (hi : round.snapshot[i]? = some h) (hlt : i < round.count)
    (hh : r.handles[h]? = some handle) (free : handle.held = false) : ∃ slice,
      (split round.task.values round.snapshot.length)[i]? = some slice ∧
      r.received (r.dispatched moves [round]).registry h =
        if handle.Reached round.start then
          [some (.subtaskRequest ⟨slice, round.task.delayMs⟩)]
        else [] := by
  have handed := handed_dispatched (r := r) distinct complete
  obtain ⟨h', slice, hh', hslice, he⟩ := Round.getElem?_errands hlt 0
  obtain rfl := Option.some.inj (hi.symm.trans hh')
  have hshare : round.share? i = some ⟨slice, round.task.delayMs⟩ := by
    rw [Round.share?, hslice]
    rfl
  have hcalled := handed.called i _ (errands_singleton round ▸ he)
    (complete.mem_iff.mpr (List.mem_range.mpr hlt))
  exact ⟨slice, hslice, received_of_call hh free (carries i h _ handle hi hshare hh) hcalled⟩

/-- Nobody receives anything but the workers at the places that have a share. -/
theorem received_of_not_mem (distinct : round.snapshot.Nodup)
    (complete : Dispatch.Complete round.count moves)
    (hh : h ∉ round.snapshot.take round.count) :
    r.received (r.dispatched moves [round]).registry h = [] := by
  refine received_of_eq ((handed_dispatched distinct complete).others h ?_)
  rwa [errands_singleton, Round.map_handle_errands]

/-- A place behind those that have a share is none of them. -/
theorem not_mem_take_of_le (distinct : round.snapshot.Nodup) {i : Nat}
    (hi : round.snapshot[i]? = some h) (hle : round.count ≤ i) :
    h ∉ round.snapshot.take round.count := by
  intro hmem
  obtain ⟨j, hj⟩ := List.mem_iff_getElem?.mp hmem
  rw [List.getElem?_take] at hj
  split at hj
  · -- A handle is at one place only.
    rename_i hlt
    have hji : j = i :=
      (List.getElem?_inj (List.getElem?_eq_some_iff.mp hj).1 distinct).mp (hj.trans hi.symm)
    exact absurd hle (Nat.not_le.mpr (hji ▸ hlt))
  · cases hj

/-- Dead handles receive nothing, whether they have a share or not. -/
theorem received_of_dead (distinct : round.snapshot.Nodup) (carries : r.Carries round)
    (complete : Dispatch.Complete round.count moves)
    (known : ∀ h ∈ round.snapshot, ∃ handle, r.handles[h]? = some handle ∧ handle.held = false)
    (hdead : r.isAlive h = false) : r.received (r.dispatched moves [round]).registry h = [] := by
  by_cases hmem : h ∈ round.snapshot.take round.count
  · obtain ⟨i, hi⟩ := List.mem_iff_getElem?.mp hmem
    rw [List.getElem?_take] at hi
    split at hi
    · rename_i hlt
      obtain ⟨handle, hh, free⟩ := known h (List.mem_of_getElem? hi)
      obtain ⟨slice, _, hreceived⟩ := received_of_lt distinct carries complete hi hlt hh free
      rw [isAlive_of_getElem? hh] at hdead
      rw [hreceived, if_neg]
      intro hreached
      cases hdead.symm.trans hreached.1
    · cases hi
  · exact received_of_not_mem distinct complete hmem

/-- The lists of values that the workers of a round receive, in the order of the snapshot. -/
def receivedLists (r r' : Registry) (round : Round) : List (List Int32) :=
  round.snapshot.flatMap fun h => (r.received r' h).map Network.Script.values

/-- If every call reaches its worker, what the workers receive are the shares. -/
theorem receivedLists_eq_split (distinct : round.snapshot.Nodup) (carries : r.Carries round)
    (complete : Dispatch.Complete round.count moves)
    (free : ∀ h ∈ round.snapshot, ∃ handle,
      r.handles[h]? = some handle ∧ handle.held = false ∧ handle.Reached round.start) :
    r.receivedLists (r.dispatched moves [round]).registry round =
      split round.task.values round.snapshot.length := by
  refine flatMap_eq_of_getElem? ?_ fun i h hi => ?_
  · rw [length_split]
    exact Nat.min_le_left _ _
  · obtain ⟨handle, hh, hfree, hreached⟩ := free h (List.mem_of_getElem? hi)
    by_cases hlt : i < round.count
    · obtain ⟨slice, hslice, hreceived⟩ :=
        received_of_lt distinct carries complete hi hlt hh hfree
      rw [hreceived, if_pos hreached, hslice]
      rfl
    · have hnone : (split round.task.values round.snapshot.length)[i]? = none := by
        refine List.getElem?_eq_none ?_
        rw [length_split, Nat.min_comm]
        exact Nat.not_lt.mp hlt
      rw [received_of_not_mem distinct complete
        (not_mem_take_of_le distinct hi (Nat.not_lt.mp hlt)), hnone]
      rfl

/-- What the workers of a round over different handles receive, whatever the order of the calls and
whatever the workers do. A worker that the call reaches gets exactly one message if its place has a
share, the subtask with that share; a dead handle gets nothing, and neither does anybody behind the
last share or outside of the snapshot. So if there is at least one worker and the calls reach them
all, the lists that they receive are the values of the task in order, none is empty, and no two
lengths differ by more than one. -/
theorem round_covers_values (distinct : round.snapshot.Nodup) (carries : r.Carries round)
    (known : ∀ h ∈ round.snapshot, ∃ handle, r.handles[h]? = some handle ∧ handle.held = false)
    (complete : Dispatch.Complete round.count moves) :
    let r' := (r.dispatchWith moves [round]).2
    (∀ (i : Nat) h, round.snapshot[i]? = some h → i < round.count → r.Reaches h round.start →
      ∃ slice, (split round.task.values round.snapshot.length)[i]? = some slice ∧
        r.received r' h = [some (.subtaskRequest ⟨slice, round.task.delayMs⟩)]) ∧
    (∀ h, r.isAlive h = false → r.received r' h = []) ∧
    (∀ (i : Nat) h, round.snapshot[i]? = some h → round.count ≤ i → r.received r' h = []) ∧
    (∀ h ∉ round.snapshot, r.received r' h = []) ∧
    (round.snapshot ≠ [] → (∀ h ∈ round.snapshot, r.Reaches h round.start) →
      (r.receivedLists r' round).flatten = round.task.values ∧
      (∀ values ∈ r.receivedLists r' round, values ≠ []) ∧
      ∀ values ∈ r.receivedLists r' round, ∀ others ∈ r.receivedLists r' round,
        values.length ≤ others.length + 1) := by
  intro r'
  refine ⟨fun i h hi hlt hreaches => ?_, fun h hdead => ?_, fun i h hi hle => ?_,
    fun h hh => ?_, fun hsome hreach => ?_⟩
  · obtain ⟨handle, hh, free⟩ := known h (List.mem_of_getElem? hi)
    obtain ⟨handle', hh', hreached⟩ := hreaches
    obtain rfl := Option.some.inj (hh.symm.trans hh')
    obtain ⟨slice, hslice, hreceived⟩ := received_of_lt distinct carries complete hi hlt hh free
    exact ⟨slice, hslice, hreceived.trans (if_pos hreached)⟩
  · exact received_of_dead distinct carries complete known hdead
  · exact received_of_not_mem distinct complete (not_mem_take_of_le distinct hi hle)
  · exact received_of_not_mem distinct complete fun hmem => hh (List.mem_of_mem_take hmem)
  · have hlists : r.receivedLists r' round =
        split round.task.values round.snapshot.length := by
      refine receivedLists_eq_split distinct carries complete fun h hh => ?_
      obtain ⟨handle, hhandle, free⟩ := known h hh
      obtain ⟨handle', hhandle', hreached⟩ := hreach h hh
      obtain rfl := Option.some.inj (hhandle.symm.trans hhandle')
      exact ⟨handle, hhandle, free, hreached⟩
    rw [hlists]
    refine ⟨flatten_split _ (List.length_pos_iff.mpr hsome), fun values hv => ?_,
      fun values hv others ho => length_le_of_mem_split hv ho⟩
    exact List.length_pos_iff.mp (length_pos_of_mem_split hv)

/-- A round over three workers that are all there, not in the order in which they registered. -/
def threeShares : Round := ⟨⟨[1, 2, 3, 4, 5], 0⟩, [6, 0, 1], 0, some 50⟩

/-- They receive all values, and a worker that has been given up receives nothing. -/
theorem round_covers_values_seven :
    let r' := (seven.dispatchWith [.call 1, .settle 1, .call 2, .call 0] [threeShares]).2
    (seven.receivedLists r' threeShares).flatten = [1, 2, 3, 4, 5] ∧ seven.received r' 2 = [] := by
  have carries : seven.Carries threeShares := by
    intro i h q handle hi hq hh
    have hlt : i < 3 := (List.getElem?_eq_some_iff.mp hi).1
    interval_cases i <;> cases hi <;> cases hq <;> cases hh <;> decide
  have known : ∀ h ∈ threeShares.snapshot, ∃ handle, seven.handles[h]? = some handle ∧
      handle.held = false ∧ handle.Reached threeShares.start := by
    intro h hh
    simp only [threeShares, List.mem_cons, List.not_mem_nil, or_false] at hh
    rcases hh with rfl | rfl | rfl <;> exact ⟨_, rfl, rfl, by decide⟩
  obtain ⟨_, hdead, _, _, hall⟩ := round_covers_values (by decide) carries
    (fun h hh => (known h hh).imp fun _ hhandle => ⟨hhandle.1, hhandle.2.1⟩)
    (show Dispatch.Complete threeShares.count [.call 1, .settle 1, .call 2, .call 0] by decide)
  obtain ⟨hflatten, _⟩ := hall nofun
    fun h hh => (known h hh).imp fun _ hhandle => ⟨hhandle.1, hhandle.2.2⟩
  exact ⟨hflatten, hdead 2 rfl⟩

/-- A task that goes to nobody. -/
def unserved : Round := ⟨⟨[1], 0⟩, [], 0, none⟩

/-- Without a worker the values go nowhere, although no worker is missing or dead. -/
theorem values_lost_without_workers :
    unserved.snapshot.Nodup ∧ Dispatch.Complete unserved.count [] ∧
    (∀ h ∈ unserved.snapshot, empty.Reaches h unserved.start) ∧
    (empty.receivedLists (empty.dispatchWith [] [unserved]).2 unserved).flatten ≠
      unserved.task.values :=
  ⟨List.nodup_nil, by decide, nofun, by decide⟩

end Registry

end SumCluster
