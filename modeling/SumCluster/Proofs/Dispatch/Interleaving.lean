import Mathlib.Data.List.Basic
import SumCluster.Dispatch
import SumCluster.Proofs.Handle.Service

/-!
Calls whose workers all answer, made in any order. Whatever the order, each errand gets the value
that belongs to its subtask, no worker is taken out, and each worker has taken exactly the subtasks
of the calls that were made on it.
-/

namespace SumCluster

open Handle (framesOf)
open Wire (SubtaskRequest)

/-- All places of a list in a row are the list. -/
theorem filterMap_getElem?_range {α : Type} (l : List α) :
    (List.range l.length).filterMap (l[·]?) = l := by
  have hsome : (List.range l.length).map (l[·]?) = l.map some := by
    refine List.ext_getElem (by simp) ?_
    intro i _ hi
    simp only [List.length_map] at hi
    simp [hi]
  have hid : (List.range l.length).filterMap (l[·]?) =
      ((List.range l.length).map (l[·]?)).filterMap id := by
    rw [List.filterMap_map]
    rfl
  rw [hid, hsome, List.filterMap_map]
  exact List.filterMap_some

/-- What a list brings in, place by place. -/
theorem filterMap_eq_of_getElem? {α β : Type} {l : List α} {n : Nat} {f : α → Option β}
    {g : Nat → Option β} (hl : l.length = n) (h : ∀ i < n, l[i]?.bind f = g i) :
    l.filterMap f = (List.range n).filterMap g := by
  conv_lhs => rw [← filterMap_getElem?_range l, List.filterMap_filterMap, hl]
  exact List.filterMap_congr fun i hi => h i (List.mem_range.mp hi)

/-- The errand whose call a move makes. -/
def Move.call? : Move → Option Nat
  | .call i => some i
  | .settle _ => none

/-- What has become of a handle that was asked some subtasks and answered them. -/
structure Handle.Asked (before : Handle) (requests : List SubtaskRequest) (after : Handle) :
    Prop where
  workerId : after.workerId = before.workerId
  alive : after.alive = before.alive
  taken : after.link.taken = before.link.taken ++ framesOf requests
  untouched : requests = [] → after = before

theorem Handle.Asked.refl (h : Handle) : h.Asked [] h :=
  ⟨rfl, rfl, (List.append_nil _).symm, fun _ => rfl⟩

theorem Handle.Asked.trans {h₁ h₂ h₃ : Handle} {qs ps : List SubtaskRequest} (h : h₁.Asked qs h₂)
    (h' : h₂.Asked ps h₃) : h₁.Asked (qs ++ ps) h₃ := by
  refine ⟨h'.workerId.trans h.workerId, h'.alive.trans h.alive, ?_, ?_⟩
  · rw [h'.taken, h.taken, List.append_assoc, framesOf, framesOf, framesOf, List.map_append]
  · intro hnil
    obtain ⟨rfl, rfl⟩ := List.append_eq_nil_iff.mp hnil
    rw [h'.untouched rfl, h.untouched rfl]

namespace Registry

variable {r : Registry} {h : HandleId} {handle : Handle}

theorem handles_update_self (hh : r.handles[h]? = some handle) (f : Handle → Handle) :
    (r.update h f).handles[h]? = some (f handle) := by
  simp [update, hh]

theorem handles_update_of_ne {j : HandleId} (hne : h ≠ j) (f : Handle → Handle) :
    (r.update h f).handles[j]? = r.handles[j]? := by
  simp [update, hne]

theorem call_of_handle (hh : r.handles[h]? = some handle) (start : Nanos) (q : SubtaskRequest)
    (limit : Option Nanos) : r.call h start q limit =
      ((handle.call start q limit).1, r.update h fun _ => (handle.call start q limit).2) := by
  rw [call, hh]

end Registry

namespace Dispatch

/-- The errands whose calls some moves make, in their order. -/
def called (moves : List Move) : List Nat := moves.filterMap Move.call?

theorem mem_called {i : Nat} {moves : List Move} : i ∈ called moves ↔ .call i ∈ moves := by
  rw [called, List.mem_filterMap]
  constructor
  · rintro ⟨m, hm, hcall⟩
    cases m with
    | call j => exact Option.some.inj hcall ▸ hm
    | settle j => cases hcall
  · exact fun hm => ⟨.call i, hm, rfl⟩

/-- Moves that make each of some calls once. -/
def Complete (count : Nat) (moves : List Move) : Prop := (called moves).Perm (List.range count)

instance (count : Nat) (moves : List Move) : Decidable (Complete count moves) :=
  inferInstanceAs (Decidable ((called moves).Perm (List.range count)))

/-- The errands of some calls. -/
def made (errands : List Errand) (calls : List Nat) : List Errand := calls.filterMap (errands[·]?)

/-- The subtasks of the errands to one handle. -/
def requestsTo (h : HandleId) (errands : List Errand) : List SubtaskRequest :=
  errands.filterMap fun e => if e.handle = h then some e.request else none

theorem requestsTo_append (h : HandleId) (errands more : List Errand) :
    requestsTo h (errands ++ more) = requestsTo h errands ++ requestsTo h more :=
  List.filterMap_append

/-- All calls in a row are all errands. -/
theorem made_range (errands : List Errand) :
    made errands (List.range errands.length) = errands := filterMap_getElem?_range errands

theorem Complete.made_perm {errands : List Errand} {moves : List Move}
    (h : Complete errands.length moves) : (made errands (called moves)).Perm errands := by
  have hperm : (made errands (called moves)).Perm (made errands (List.range errands.length)) :=
    List.Perm.filterMap _ h
  rwa [made_range] at hperm

/-- The handles of all errands are those of workers that answer, and the subtasks fit. -/
structure Served (r : Registry) (errands : List Errand) (fit : HandleId → SubtaskRequest → Prop)
    (value : HandleId → SubtaskRequest → Int32) (limit : Option Nanos) : Prop where
  serves : ∀ e ∈ errands, ∃ handle, r.handles[e.handle]? = some handle ∧
    handle.Serves (fit e.handle) (value e.handle) limit
  fits : ∀ e ∈ errands, fit e.handle e.request
  limits : ∀ e ∈ errands, e.limit = limit

/-- Where rounds stand that began with registry `r`, once some calls were made. -/
structure Progress (r : Registry) (errands : List Errand) (fit : HandleId → SubtaskRequest → Prop)
    (value : HandleId → SubtaskRequest → Int32) (limit : Option Nanos) (calls : List Nat)
    (d : Dispatch) : Prop where
  served : Served d.registry errands fit value limit
  members : d.registry.members = r.members
  count : d.registry.handles.length = r.handles.length
  asked : ∀ (h : HandleId) (before : Handle), r.handles[h]? = some before →
    ∃ after, d.registry.handles[h]? = some after ∧
      before.Asked (requestsTo h (made errands calls)) after
  size : d.results.length = errands.length
  unfailed : ∀ (i : Nat) u t, d.results[i]? ≠ some (some ⟨.error u, t⟩)
  answered : ∀ i ∈ calls, ∀ e, errands[i]? = some e → ∃ workerId finish,
    d.results[i]? = some (some ⟨.ok ⟨value e.handle e.request, workerId⟩, finish⟩)

variable {r : Registry} {errands : List Errand} {fit : HandleId → SubtaskRequest → Prop}
  {value : HandleId → SubtaskRequest → Int32} {limit : Option Nanos} {calls : List Nat}
  {d : Dispatch}

theorem progress_begin (hs : Served r errands fit value limit) :
    Progress r errands fit value limit [] (begin r errands) := by
  refine ⟨hs, rfl, rfl, fun h before hb => ⟨before, hb, .refl before⟩, by simp [begin], ?_, nofun⟩
  intro i u t h
  have hmem := List.mem_of_getElem? h
  simp [begin] at hmem

/-- A call of an errand changes its handle and nothing else. -/
theorem Progress.call_errand (hp : Progress r errands fit value limit calls d) {i : Nat}
    {e : Errand} (he : errands[i]? = some e) : ∃ workerId before after,
      d.registry.handles[e.handle]? = some before ∧
      before.Asked [e.request] after ∧ after.Serves (fit e.handle) (value e.handle) limit ∧
      ∃ finish, step errands d (.call i) =
        ⟨d.registry.update e.handle fun _ => after,
          d.results.set i (some ⟨.ok ⟨value e.handle e.request, workerId⟩, finish⟩)⟩ := by
  have hmem : e ∈ errands := List.mem_of_getElem? he
  obtain ⟨before, hb, hserves⟩ := hp.served.serves e hmem
  obtain ⟨workerId, after, hcall, hafter, hid, htaken⟩ :=
    hserves.call (hp.served.fits e hmem) e.start
  refine ⟨workerId, before, after, hb, ⟨hid, ?_, htaken, nofun⟩, hafter, ?_⟩
  · rw [hafter.usable.1, hserves.usable.1]
  · refine ⟨(d.registry.update e.handle fun _ => after).clock e.handle, ?_⟩
    rw [step, he]
    simp only [hp.served.limits e hmem, Registry.call_of_handle hb, hcall]
    rfl

theorem Progress.call (hp : Progress r errands fit value limit calls d) (i : Nat) :
    Progress r errands fit value limit (calls ++ [i]) (step errands d (.call i)) := by
  cases he : errands[i]? with
  | none =>
    have hstep : step errands d (.call i) = d := by rw [step, he]
    have hmade : made errands (calls ++ [i]) = made errands calls := by
      simp [made, he]
    rw [hstep]
    refine ⟨hp.served, hp.members, hp.count, hmade ▸ hp.asked, hp.size, hp.unfailed, ?_⟩
    intro j hj e hje
    rcases List.mem_append.mp hj with hj | hj
    · exact hp.answered j hj e hje
    · obtain rfl := List.mem_singleton.mp hj
      exact absurd (hje.symm.trans he) nofun
  | some e =>
    obtain ⟨workerId, before, after, hb, hasked, hafter, finish, hstep⟩ := hp.call_errand he
    have hmade : made errands (calls ++ [i]) = made errands calls ++ [e] := by
      simp [made, he]
    have hi : i < d.results.length := by
      rw [hp.size]
      exact (List.getElem?_eq_some_iff.mp he).1
    rw [hstep]
    refine ⟨⟨?_, hp.served.fits, hp.served.limits⟩, hp.members, ?_, ?_, ?_, ?_, ?_⟩
    · intro e' he'
      obtain ⟨handle, hh, hserves⟩ := hp.served.serves e' he'
      by_cases heq : e.handle = e'.handle
      · exact ⟨after, heq ▸ Registry.handles_update_self hb _, heq ▸ hafter⟩
      · exact ⟨handle, (Registry.handles_update_of_ne heq _).trans hh, hserves⟩
    · simp [Registry.update, hp.count]
    · intro h first hfirst
      obtain ⟨handle, hh, hsofar⟩ := hp.asked h first hfirst
      rw [hmade]
      by_cases heq : e.handle = h
      · subst heq
        obtain rfl : before = handle := Option.some.inj (hb.symm.trans hh)
        refine ⟨after, Registry.handles_update_self hh _, ?_⟩
        have htrans := hsofar.trans hasked
        simpa [requestsTo] using htrans
      · refine ⟨handle, (Registry.handles_update_of_ne heq _).trans hh, ?_⟩
        simpa [requestsTo, heq] using hsofar
    · simp [hp.size]
    · intro j u t hj
      rw [List.getElem?_set] at hj
      split at hj
      · simp at hj
      · exact hp.unfailed j u t hj
    · intro j hj e' he'
      by_cases hij : i = j
      · subst hij
        obtain rfl : e = e' := Option.some.inj (he.symm.trans he')
        exact ⟨workerId, finish, by simp [hi]⟩
      · rcases List.mem_append.mp hj with hj | hj
        · obtain ⟨id, t, hres⟩ := hp.answered j hj e' he'
          exact ⟨id, t, by rw [List.getElem?_set_ne hij]; exact hres⟩
        · exact absurd (List.mem_singleton.mp hj).symm hij

/-- Settling a call that has not failed changes nothing. -/
theorem Progress.step_settle (hp : Progress r errands fit value limit calls d) (i : Nat) :
    step errands d (.settle i) = d := by
  simp only [Dispatch.step]
  split
  · rename_i hres
    exact absurd hres (hp.unfailed i _ _)
  · rfl

/-- One move. -/
theorem Progress.step (hp : Progress r errands fit value limit calls d) : ∀ m : Move,
    Progress r errands fit value limit (calls ++ m.call?.toList) (step errands d m)
  | .call i => hp.call i
  | .settle i => by
    rw [hp.step_settle i]
    simpa [Move.call?] using hp

/-- Any moves. -/
theorem Progress.run (moves : List Move) (hp : Progress r errands fit value limit calls d) :
    Progress r errands fit value limit (calls ++ called moves) (d.run errands moves) := by
  induction moves generalizing calls d with
  | nil => simpa [called, Dispatch.run] using hp
  | cons m moves ih =>
    have hrest := ih (hp.step m)
    have hcalled : calls ++ m.call?.toList ++ called moves = calls ++ called (m :: moves) := by
      cases m with
      | call i => simp [called, Move.call?]
      | settle i => simp [called, Move.call?, List.filterMap_cons]
    rwa [hcalled] at hrest

end Dispatch

end SumCluster
