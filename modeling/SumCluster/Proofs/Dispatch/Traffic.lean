import Mathlib.Logic.Function.Basic
import SumCluster.Network.Script
import SumCluster.Proofs.Dispatch.Moves
import SumCluster.Proofs.Turn

/-!
Calls that go on at the same time. Each has the connection of its worker while it lasts, what the
workers do is not known before it happens, and failed calls are settled while others wait. Main
statement: whatever happens comes to the same as the moves of the rounds on connections of which all
is known from the start. A call counts from when its turn came, what it has come to is final, and
with a deadline it can always come to an end.
-/

namespace SumCluster

open Network (Arrival)
open Wire (Bytes)

/-- Calls on their way, and how it came to that. -/
structure Traffic where
  /-- The registry, and the results of the calls that have ended. -/
  dispatch : Dispatch
  /-- The call that has the connection of a handle, and the number of its errand. -/
  turns : HandleId → Option (Nat × Turn)
  /-- Up to when the calls on each connection have been watched. -/
  watched : HandleId → Nanos
  /-- What has come on each connection. -/
  came : HandleId → List Arrival
  /-- The frames that were sent on each connection. -/
  sent : HandleId → List Bytes
  /-- The turns and settlements so far, in order. -/
  moves : List Move

/-- No rule stands for a worker, whatever it does comes when it happens, and no call keeps its
connection. -/
structure Handle.Live (h : Handle) : Prop where
  silent : h.link.peer = .silent
  free : h.held = false

/-- No rule stands for any worker, and all connections are free. -/
def Registry.Live (r : Registry) : Prop :=
  ∀ (j : HandleId) (handle : Handle), r.handles[j]? = some handle → handle.Live

/-- The registry when it is known what comes on each connection. -/
def Registry.expecting (r : Registry) (coming : HandleId → List Arrival) : Registry :=
  { r with handles := r.handles.mapIdx fun j handle => handle.ahead [] (coming j) }

namespace Traffic

/-- No call has had its turn. -/
def begin (r : Registry) (errands : List Errand) : Traffic :=
  ⟨.begin r errands, fun _ => none, fun _ => 0, fun _ => [], fun _ => [], []⟩

/-- A connection is watched up to a moment. -/
def watch (watched : HandleId → Nanos) (j : HandleId) (now : Nanos) : HandleId → Nanos :=
  Function.update watched j (max (watched j) now)

/-- A call gets the connection of its worker and sends its frames. -/
def take (c : Traffic) (i : Nat) (t : Turn) : Traffic :=
  { c with
    turns := Function.update c.turns t.errand.handle (some (i, t))
    watched := watch c.watched t.errand.handle t.start
    sent := Function.update c.sent t.errand.handle (c.sent t.errand.handle ++ t.frames)
    moves := c.moves ++ [.call i] }

/-- Something comes for the call that has a connection. -/
def arrive (c : Traffic) (j : HandleId) (i : Nat) (t : Turn) (a : Arrival) : Traffic :=
  { c with
    turns := Function.update c.turns j (some (i, t.arrive a))
    came := Function.update c.came j (c.came j ++ [a]) }

/-- A call gives the connection back, seen at some moment to have ended. -/
def finish (c : Traffic) (j : HandleId) (i : Nat) (t : Turn) (now : Nanos) (result : Result) :
    Traffic :=
  { c with
    dispatch := ⟨c.dispatch.registry.giveBack t, c.dispatch.results.set i (some result)⟩
    turns := Function.update c.turns j none
    watched := watch c.watched j now }

/-- A call is settled. -/
def settle (errands : List Errand) (c : Traffic) (i : Nat) : Traffic :=
  { c with
    dispatch := c.dispatch.step errands (.settle i)
    moves := c.moves ++ [.settle i] }

/-- What can happen to errands. -/
inductive Happens (errands : List Errand) (r : Registry) : Traffic → Prop where
  | begin : Happens errands r (begin r errands)
  /-- The turn of a call comes once, when nobody else has the connection. -/
  | take {c : Traffic} {e : Errand} {t : Turn} (i : Nat) (before : Happens errands r c)
      (he : errands[i]? = some e) (new : c.dispatch.results[i]? = some none)
      (free : c.turns e.handle = none) (ht : c.dispatch.registry.turn? e = some t) :
      Happens errands r (c.take i t)
  /-- What comes is new to whoever has watched the connection. -/
  | arrive {c : Traffic} {i : Nat} {t : Turn} (j : HandleId) (a : Arrival)
      (before : Happens errands r c) (ht : c.turns j = some (i, t)) (late : c.watched j < a.due) :
      Happens errands r (c.arrive j i t a)
  | finish {c : Traffic} {i : Nat} {t : Turn} {result : Result} (j : HandleId) (now : Nanos)
      (before : Happens errands r c) (ht : c.turns j = some (i, t))
      (hend : t.ended? now = some result) : Happens errands r (c.finish j i t now result)
  /-- A call that has ended is settled at any later time. -/
  | settle {c : Traffic} {i : Nat} {result : Result} (before : Happens errands r c)
      (ended : c.dispatch.results[i]? = some (some result)) : Happens errands r (settle errands c i)

variable {errands : List Errand} {r : Registry} {c : Traffic} {later : HandleId → List Arrival}
  {d : Dispatch}

/-! ### What is known of the calls -/

/-- A call that has a connection is the call of an errand that has not ended. -/
structure Open (errands : List Errand) (c : Traffic) (j : HandleId) (i : Nat) (t : Turn) :
    Prop where
  errand : errands[i]? = some t.errand
  handle : t.errand.handle = j
  result : c.dispatch.results[i]? = some none
  live : t.handle.Live

/-- All calls that have connections are open ones, on workers that are live as all others are. -/
structure Orderly (errands : List Errand) (c : Traffic) : Prop where
  live : c.dispatch.registry.Live
  turns : ∀ j i t, c.turns j = some (i, t) → Open errands c j i t

/-- The call whose turn has come starts from the worker as it is registered. -/
theorem turn?_eq_some {e : Errand} {t : Turn} (ht : r.turn? e = some t) :
    ∃ handle, r.handles[e.handle]? = some handle ∧
      t = ⟨e, { handle with link := handle.link.forget }⟩ := by
  obtain ⟨handle, hh, rfl⟩ := Option.map_eq_some_iff.mp ht
  exact ⟨handle, hh, rfl⟩

theorem errand_of_turn? {e : Errand} {t : Turn} (ht : r.turn? e = some t) : t.errand = e := by
  obtain ⟨handle, -, rfl⟩ := turn?_eq_some ht
  rfl

/-- An errand whose call has a connection has no other. -/
theorem Orderly.handle_eq (hc : Orderly errands c) {j k : HandleId} {i : Nat} {t u : Turn}
    (hj : c.turns j = some (i, t)) (hk : c.turns k = some (i, u)) : j = k := by
  have hopen := hc.turns j i t hj
  have hopen' := hc.turns k i u hk
  have herrand : t.errand = u.errand := Option.some.inj (hopen.errand.symm.trans hopen'.errand)
  rw [← hopen.handle, herrand, hopen'.handle]

theorem live_update {j : HandleId} {f : Handle → Handle} (hr : r.Live)
    (hf : ∀ handle, handle.Live → (f handle).Live) : (r.update j f).Live := by
  intro k handle hh
  rw [Registry.handles_update] at hh
  split at hh
  · obtain ⟨before, hbefore, rfl⟩ := Option.map_eq_some_iff.mp hh
    exact hf before (hr k before hbefore)
  · exact hr k handle hh

/-- Who has a connection after one of them has changed hands. -/
theorem update_cases {turns : HandleId → Option (Nat × Turn)} {j k : HandleId}
    {changed who : Option (Nat × Turn)} (h : Function.update turns j changed k = who) :
    k = j ∧ changed = who ∨ k ≠ j ∧ turns k = who := by
  by_cases hkj : k = j
  · subst hkj
    exact .inl ⟨rfl, by rwa [Function.update_self] at h⟩
  · exact .inr ⟨hkj, by rwa [Function.update_of_ne hkj] at h⟩

theorem Happens.orderly (h : Happens errands r c) (hr : r.Live) : Orderly errands c := by
  induction h with
  | begin => exact ⟨hr, nofun⟩
  | @take c e t i before he new free ht ih =>
    obtain ⟨handle, hh, rfl⟩ := turn?_eq_some ht
    refine ⟨ih.live, fun j i' t' hj => ?_⟩
    rcases update_cases hj with ⟨rfl, hchanged⟩ | ⟨-, hj⟩
    · cases hchanged
      exact ⟨he, rfl, new, { ih.live _ handle hh with }⟩
    · exact { ih.turns j i' t' hj with }
  | @arrive c i t j a before ht late ih =>
    refine ⟨ih.live, fun k i' t' hk => ?_⟩
    rcases update_cases hk with ⟨rfl, hchanged⟩ | ⟨-, hk⟩
    · cases hchanged
      have hopen := ih.turns k i t ht
      exact { hopen with live := { hopen.live with } }
    · exact { ih.turns k i' t' hk with }
  | @finish c i t result j now before ht hend ih =>
    have hlive := (ih.turns j i t ht).live
    refine ⟨live_update ih.live fun handle _ => ⟨?_, ?_⟩, fun k i' t' hk => ?_⟩
    · exact (Handle.call_keeps ..).2.trans hlive.silent
    · exact (Handle.held_call (congrArg Prod.fst (Turn.ended?_eq_some hend).1)).trans hlive.free
    · rcases update_cases hk with ⟨-, hchanged⟩ | ⟨hkj, hk⟩
      · cases hchanged
      · have hii : i ≠ i' := by
          rintro rfl
          exact hkj (ih.handle_eq hk ht)
        exact { ih.turns k i' t' hk with
          result := (List.getElem?_set_ne hii).trans (ih.turns k i' t' hk).result }
  | @settle c i result before ended ih =>
    refine ⟨?_, fun j i' t' hj => ?_⟩
    · rw [Traffic.settle]
      rcases Dispatch.step_settle errands c.dispatch i with ⟨e, _, _, _, _, hstep⟩ | hstep
      · rw [hstep]
        exact live_update (f := Handle.kill) ih.live fun handle hlive => { hlive with }
      · rw [hstep]
        exact ih.live
    · exact { ih.turns j i' t' hj with
        result := (Dispatch.results_settle errands c.dispatch i) ▸ (ih.turns j i' t' hj).result }

/-- Where the moves of the rounds stand when all is known of what comes, from where the calls
stand. -/
structure Matches (r : Registry) (c : Traffic) (later : HandleId → List Arrival) (d : Dispatch) :
    Prop where
  members : d.registry.members = c.dispatch.registry.members
  size : d.results.length = c.dispatch.results.length
  /-- A connection that nobody has is as far ahead as it was. -/
  rest : ∀ j, c.turns j = none → ∃ before, d.registry.handles[j]? =
    c.dispatch.registry.handles[j]?.map (·.ahead before (later j))
  /-- A call that has a connection has ended there, if it ends at all. -/
  busy : ∀ j i t, c.turns j = some (i, t) → ∃ before,
    d.registry.handles[j]? =
      c.dispatch.registry.handles[j]?.map (t.ahead before (later j)).leave ∧
    d.results[i]? = some (t.ahead before (later j)).result?
  results : ∀ i, (∀ j t, c.turns j ≠ some (i, t)) → d.results[i]? = c.dispatch.results[i]?
  taken : ∀ j : HandleId, d.registry.handles[j]?.map (·.link.taken) =
    r.handles[j]?.map (·.link.taken ++ c.sent j)

/-! ### One thing that happens -/

theorem matches_begin (errands : List Errand) (r : Registry) (later : HandleId → List Arrival) :
    Matches r (begin r errands) later (.begin (r.expecting later) errands) where
  members := rfl
  size := rfl
  rest _ _ := ⟨[], List.getElem?_mapIdx⟩
  busy _ _ _ := nofun
  results _ _ := rfl
  taken j := by simp [begin, Dispatch.begin, Registry.expecting, Function.comp_def, Handle.ahead,
    Network.Link.ahead]

/-- What the move of a call comes to if it is known who its worker is. -/
theorem step_call_of_handle {i : Nat} {e : Errand} {handle : Handle} (he : errands[i]? = some e)
    (hh : d.registry.handles[e.handle]? = some handle) :
    d.step errands (.call i) = ⟨d.registry.update e.handle fun _ => (Turn.mk e handle).call.2,
      d.results.set i (Turn.mk e handle).result?⟩ := by
  rw [Dispatch.step_call he, Registry.call_of_handle hh, Registry.clock,
    Registry.handles_update_self hh]
  rfl

theorem sent_take_self (c : Traffic) (i : Nat) (t : Turn) :
    (c.take i t).sent t.errand.handle = c.sent t.errand.handle ++ t.frames :=
  Function.update_self ..

theorem sent_take_of_ne {t : Turn} {j : HandleId} (h : j ≠ t.errand.handle) (c : Traffic)
    (i : Nat) : (c.take i t).sent j = c.sent j := Function.update_of_ne h ..

/-- The worker has taken the frames that were sent before, and then those of the call. -/
theorem Matches.taken_take {e : Errand} {registered : Handle} {before : List Bytes} {i : Nat}
    (hd : Matches r c later d)
    (hhandle : d.registry.handles[e.handle]? = some (registered.ahead before (later e.handle)))
    (hlater : ∀ a ∈ later e.handle,
      (Turn.mk e { registered with link := registered.link.forget }).start < a.due)
    (j : HandleId) :
    (d.registry.update e.handle fun _ =>
      (Turn.mk e (registered.ahead before (later e.handle))).call.2).handles[j]?.map
        (·.link.taken) =
      r.handles[j]?.map (·.link.taken ++
        (c.take i ⟨e, { registered with link := registered.link.forget }⟩).sent j) := by
  have htaken := hd.taken j
  by_cases hje : j = e.handle
  · subst hje
    rw [hhandle] at htaken
    rw [Registry.handles_update_self hhandle, Option.map_some, ← Turn.ahead_forget,
      Turn.taken_call_ahead hlater, sent_take_self]
    cases hfirst : r.handles[e.handle]? with
    | none =>
      rw [hfirst] at htaken
      cases htaken
    | some first =>
      rw [hfirst, Option.map_some, Option.map_some] at htaken
      rw [Option.map_some, ← List.append_assoc]
      exact congrArg some (congrArg (· ++ _) (Option.some.inj htaken))
  · rw [Registry.handles_update_of_ne (Ne.symm hje), sent_take_of_ne (t := ⟨e, _⟩) hje]
    exact htaken

/-- A call counts from when its turn comes. -/
theorem Matches.take {i : Nat} {e : Errand} {t : Turn} (hd : Matches r c later d)
    (hc : Orderly errands c) (he : errands[i]? = some e)
    (new : c.dispatch.results[i]? = some none) (free : c.turns e.handle = none)
    (ht : c.dispatch.registry.turn? e = some t)
    (hlater : ∀ a ∈ later e.handle, t.start < a.due) :
    Matches r (c.take i t) later (d.step errands (.call i)) := by
  obtain ⟨registered, hregistered, rfl⟩ := turn?_eq_some ht
  obtain ⟨before, hhandle⟩ := hd.rest e.handle free
  rw [hregistered, Option.map_some] at hhandle
  have hlt : i < d.results.length := by
    rw [hd.size]
    exact (List.getElem?_eq_some_iff.mp new).1
  rw [step_call_of_handle he hhandle]
  refine ⟨hd.members, ?_, ?_, ?_, ?_, ?_⟩
  · exact (List.length_set ..).trans hd.size
  · intro j hj
    rcases update_cases hj with ⟨-, hchanged⟩ | ⟨hje, hj⟩
    · cases hchanged
    · rw [Registry.handles_update_of_ne (Ne.symm hje)]
      exact hd.rest j hj
  · intro j i' t' hj
    rcases update_cases hj with ⟨rfl, hchanged⟩ | ⟨hje, hj⟩
    · cases hchanged
      refine ⟨before ++ registered.link.taken, ?_, ?_⟩
      · rw [Registry.handles_update_self hhandle, Turn.ahead_forget, Traffic.take, hregistered,
          Option.map_some, Turn.leave_registered]
      · rw [Turn.ahead_forget, List.getElem?_set_self hlt]
    · have hii : i ≠ i' := by
        rintro rfl
        have hopen := hc.turns j i t' hj
        obtain rfl : e = t'.errand := Option.some.inj (he.symm.trans hopen.errand)
        exact hje hopen.handle.symm
      rw [Registry.handles_update_of_ne (Ne.symm hje), List.getElem?_set_ne hii]
      exact hd.busy j i' t' hj
  · intro i' hrest
    have hii : i ≠ i' := by
      rintro rfl
      exact hrest _ _ (Function.update_self ..)
    rw [List.getElem?_set_ne hii]
    refine hd.results i' fun j t' hj => ?_
    have hje : j ≠ e.handle := by
      rintro rfl
      rw [free] at hj
      cases hj
    exact hrest j t' ((Function.update_of_ne hje ..).trans hj)
  · exact hd.taken_take hhandle hlater

theorem Matches.arrive {j : HandleId} {i : Nat} {t : Turn} {a : Arrival}
    (hd : Matches r c (Function.update later j (a :: later j)) d)
    (ht : c.turns j = some (i, t)) : Matches r (c.arrive j i t a) later d := by
  refine ⟨hd.members, hd.size, ?_, ?_, ?_, hd.taken⟩
  · intro k hk
    rcases update_cases hk with ⟨-, hchanged⟩ | ⟨hkj, hk⟩
    · cases hchanged
    · have hrest := hd.rest k hk
      rwa [Function.update_of_ne hkj] at hrest
  · intro k i' t' hk
    rcases update_cases hk with ⟨rfl, hchanged⟩ | ⟨hkj, hk⟩
    · cases hchanged
      have hbusy := hd.busy k i t ht
      simp only [Function.update_self, ← Turn.arrive_ahead] at hbusy
      exact hbusy
    · have hbusy := hd.busy k i' t' hk
      rwa [Function.update_of_ne hkj] at hbusy
  · intro i' hrest
    refine hd.results i' fun k t' hk => ?_
    by_cases hkj : k = j
    · subst hkj
      rw [ht] at hk
      cases hk
      exact hrest k (t.arrive a) (Function.update_self ..)
    · exact hrest k t' ((Function.update_of_ne hkj ..).trans hk)

theorem Matches.finish {j : HandleId} {i : Nat} {t : Turn} {now : Nanos} {result : Result}
    (hd : Matches r c later d) (hc : Orderly errands c) (ht : c.turns j = some (i, t))
    (hend : t.ended? now = some result) (hlater : ∀ a ∈ later j, now < a.due) :
    Matches r (c.finish j i t now result) later d := by
  have hopen := hc.turns j i t ht
  obtain ⟨before, hhandle, hresult⟩ := hd.busy j i t ht
  have hcount : i < c.dispatch.results.length := (List.getElem?_eq_some_iff.mp hopen.result).1
  have hregistry : (c.finish j i t now result).dispatch.registry =
      c.dispatch.registry.update j t.leave := by
    rw [Traffic.finish, Registry.giveBack, hopen.handle]
  refine ⟨hd.members, hd.size.trans (List.length_set ..).symm, ?_, ?_, ?_, hd.taken⟩
  · intro k hk
    rw [hregistry]
    rcases update_cases hk with ⟨rfl, -⟩ | ⟨hkj, hk⟩
    · refine ⟨before, ?_⟩
      rw [hhandle, Registry.handles_update, if_pos rfl, Option.map_map]
      exact congrArg (Option.map · _) (funext (Turn.leave_ahead hend hopen.live.silent hlater before))
    · rw [Registry.handles_update_of_ne (Ne.symm hkj)]
      exact hd.rest k hk
  · intro k i' t' hk
    rw [hregistry]
    rcases update_cases hk with ⟨-, hchanged⟩ | ⟨hkj, hk⟩
    · cases hchanged
    · rw [Registry.handles_update_of_ne (Ne.symm hkj)]
      exact hd.busy k i' t' hk
  · intro i' hrest
    by_cases hii : i = i'
    · subst hii
      rw [hresult, Turn.result?_ahead hend hopen.live.silent hlater]
      exact (List.getElem?_set_self hcount).symm
    · refine (hd.results i' fun k t' hk => ?_).trans (List.getElem?_set_ne hii).symm
      have hkj : k ≠ j := by
        rintro rfl
        rw [ht] at hk
        cases hk
        exact hii rfl
      exact hrest k t' ((Function.update_of_ne hkj ..).trans hk)

/-- Handles on both sides that belong together still do after the trust in one is ended. -/
theorem map_kill {r' : Registry} {j : HandleId} {f : Handle → Handle} (h : HandleId)
    (hf : ∀ handle, f handle.kill = (f handle).kill)
    (hsame : r'.handles[j]? = r.handles[j]?.map f) :
    (r'.kill h).handles[j]? = (r.kill h).handles[j]?.map f := by
  rw [Registry.kill, Registry.kill, Registry.handles_update, Registry.handles_update]
  split
  · rw [hsame, Option.map_map, Option.map_map]
    exact congrArg (Option.map · _) (funext fun handle => (hf handle).symm)
  · exact hsame

/-- Ending the trust in a worker hands nothing over. -/
theorem taken_kill (r : Registry) (h j : HandleId) :
    (r.kill h).handles[j]?.map (·.link.taken) = r.handles[j]?.map (·.link.taken) := by
  rw [Registry.kill, Registry.handles_update]
  split
  · rw [Option.map_map]
    rfl
  · rfl

/-- Settling takes out the same worker, or does nothing. -/
theorem Matches.settle {i : Nat} {result : Result} (hd : Matches r c later d)
    (hc : Orderly errands c) (ended : c.dispatch.results[i]? = some (some result)) :
    Matches r (settle errands c i) later (d.step errands (.settle i)) := by
  have hresult : d.results[i]? = c.dispatch.results[i]? := by
    refine hd.results i fun j t hj => ?_
    have hopen := (hc.turns j i t hj).result
    rw [ended] at hopen
    cases hopen
  rw [Traffic.settle]
  by_cases hlost : ∃ e u t, errands[i]? = some e ∧ d.results[i]? = some (some ⟨.error u, t⟩)
  · obtain ⟨e, u, t, he, hfailed⟩ := hlost
    rw [Dispatch.step_settle_of_failed he hfailed,
      Dispatch.step_settle_of_failed he (hresult.symm.trans hfailed)]
    refine ⟨congrArg (List.erase · e.handle) hd.members, hd.size, ?_, ?_, hd.results, ?_⟩
    · intro j hj
      obtain ⟨before, hhandle⟩ := hd.rest j hj
      exact ⟨before, map_kill e.handle (fun _ => rfl) hhandle⟩
    · intro j i' t' hj
      obtain ⟨before, hhandle, hopen⟩ := hd.busy j i' t' hj
      exact ⟨before, map_kill e.handle (Turn.leave_kill _) hhandle, hopen⟩
    · intro j
      rw [← hd.taken j]
      exact taken_kill d.registry e.handle j
  · have hstep : d.step errands (.settle i) = d :=
      (Dispatch.step_settle errands d i).resolve_left
        fun ⟨e, u, t, he, hfailed, _⟩ => hlost ⟨e, u, t, he, hfailed⟩
    have hstep' : c.dispatch.step errands (.settle i) = c.dispatch :=
      (Dispatch.step_settle errands c.dispatch i).resolve_left
        fun ⟨e, u, t, he, hfailed, _⟩ => hlost ⟨e, u, t, he, hresult.trans hfailed⟩
    rw [hstep, hstep']
    exact { hd with }

/-! ### All that happens -/

theorem le_watch (watched : HandleId → Nanos) (j : HandleId) (now : Nanos) (k : HandleId) :
    watched k ≤ watch watched j now k := by
  rw [watch, Function.update_apply]
  split
  · rename_i hkj
    exact hkj ▸ Nat.le_max_left _ _
  · exact Nat.le_refl _

theorem le_watch_self (watched : HandleId → Nanos) (j : HandleId) (now : Nanos) :
    now ≤ watch watched j now j := by
  rw [watch, Function.update_self]
  exact Nat.le_max_right _ _

/-- Whatever happens comes to the same as the moves of the rounds on connections of which all is known
from the start, what comes later included. -/
theorem Happens.matches (h : Happens errands r c) (hr : r.Live)
    (later : HandleId → List Arrival) (hlater : ∀ j, ∀ a ∈ later j, c.watched j < a.due) :
    Matches r c later
      ((Dispatch.begin (r.expecting fun j => c.came j ++ later j) errands).run errands c.moves) := by
  induction h generalizing later with
  | begin => exact matches_begin errands r later
  | @take c e t i before he new free ht ih =>
    obtain rfl : t.errand = e := errand_of_turn? ht
    rw [Traffic.take, Dispatch.run_concat]
    refine (ih later fun k a ha => ?_).take (before.orderly hr) he new free ht fun a ha => ?_
    · exact Nat.lt_of_le_of_lt (le_watch ..) (hlater k a ha)
    · exact Nat.lt_of_le_of_lt (le_watch_self ..) (hlater _ a ha)
  | @arrive c i t j a before ht late ih =>
    -- What comes now is the first of what came later before.
    have hcame : (fun k => (c.arrive j i t a).came k ++ later k) =
        fun k => c.came k ++ Function.update later j (a :: later j) k := by
      funext k
      by_cases hkj : k = j
      · subst hkj
        simp [Traffic.arrive]
      · simp [Traffic.arrive, Function.update_of_ne hkj]
    rw [hcame]
    refine (ih _ fun k b hb => ?_).arrive ht
    by_cases hkj : k = j
    · subst hkj
      rw [Function.update_self] at hb
      rcases List.mem_cons.mp hb with rfl | hb
      · exact late
      · exact hlater k b hb
    · rw [Function.update_of_ne hkj] at hb
      exact hlater k b hb
  | @finish c i t result j now before ht hend ih =>
    refine (ih later fun k a ha => ?_).finish (before.orderly hr) ht hend fun a ha => ?_
    · exact Nat.lt_of_le_of_lt (le_watch ..) (hlater k a ha)
    · exact Nat.lt_of_le_of_lt (le_watch_self ..) (hlater j a ha)
  | @settle c i result before ended ih =>
    have hd := ih later hlater
    rw [Traffic.settle, Dispatch.run_concat]
    exact hd.settle (before.orderly hr) ended

/-- The result of a call that has ended is the result of its move, whatever comes later. -/
theorem Happens.result (h : Happens errands r c) (hr : r.Live)
    (later : HandleId → List Arrival) (hlater : ∀ j, ∀ a ∈ later j, c.watched j < a.due)
    {i : Nat} {result : Result} (ended : c.dispatch.results[i]? = some (some result)) :
    ((Dispatch.begin (r.expecting fun j => c.came j ++ later j) errands).run errands
      c.moves).results[i]? = some (some result) := by
  refine ((h.matches hr later hlater).results i fun j t hj => ?_).trans ended
  have hopen := ((h.orderly hr).turns j i t hj).result
  rw [ended] at hopen
  cases hopen

/-- A call that has the connection and a deadline can give the connection back. -/
theorem Happens.exists_finish (h : Happens errands r c) (hr : r.Live) {j : HandleId} {i : Nat}
    {t : Turn} (ht : c.turns j = some (i, t)) {limit : Nanos}
    (hlimit : t.errand.limit = some limit) :
    ∃ now result, Happens errands r (c.finish j i t now result) := by
  obtain ⟨result, -, hend⟩ :=
    Turn.exists_ended? hlimit ((h.orderly hr).turns j i t ht).live.free
  exact ⟨result.finish, result, .finish j result.finish h ht hend⟩

end Traffic

namespace RoundOutcome

/-- The outcome of a round needs no more of a registry than the ids. -/
theorem collect_congr {r r' : Registry} (h : ∀ j, r.workerId j = r'.workerId j) (start : Nanos)
    (o : RoundOutcome) (pairs : List (Errand × Option Result)) :
    collect r start o pairs = collect r' start o pairs := by
  induction pairs generalizing o with
  | nil => rfl
  | cons pair pairs ih =>
    rcases pair with ⟨e, _ | ⟨u | answer, finish⟩⟩
    · rfl
    · rw [collect, collect, add, add, h]
      exact ih _
    · rw [collect, collect, add, add, h]
      exact ih _

end RoundOutcome

/-- When no call is on its way any more, the rounds have come to what their moves, each call at its
turn, come to on connections of which all is known from the start: the outcomes are the same, the
workers were sent the same, and so is everything that is registered, but for the frames that are
forgotten. -/
theorem Traffic.Happens.dispatchWith {rounds : List Round} {r : Registry} {c : Traffic}
    (h : Happens (Registry.errands rounds) r c) (hr : r.Live) (hidle : ∀ j, c.turns j = none) :
    let after := (r.expecting c.came).dispatchWith c.moves rounds
    after.1 = rounds.zipIdx.map (fun numbered =>
      RoundOutcome.ofDispatch c.dispatch (Registry.errands rounds) numbered.1 numbered.2) ∧
    after.2.members = c.dispatch.registry.members ∧
    (∀ j : HandleId, ∃ before, after.2.handles[j]? =
      c.dispatch.registry.handles[j]?.map fun handle => handle.ahead before []) ∧
    ∀ j : HandleId, after.2.handles[j]?.map (·.link.taken) =
      r.handles[j]?.map fun handle => handle.link.taken ++ c.sent j := by
  have hd := h.matches hr (fun _ => []) (fun _ _ => nofun)
  simp only [List.append_nil] at hd
  refine ⟨?_, hd.members, fun j => hd.rest j (hidle j), hd.taken⟩
  simp only [Registry.dispatchWith]
  generalize (Dispatch.begin (r.expecting c.came) (Registry.errands rounds)).run
    (Registry.errands rounds) c.moves = d at hd
  have hresults : d.results = c.dispatch.results := by
    refine List.ext_getElem? fun i => hd.results i fun j t hj => ?_
    rw [hidle j] at hj
    cases hj
  have hids : ∀ j, d.registry.workerId j = c.dispatch.registry.workerId j := by
    intro j
    obtain ⟨before, hhandle⟩ := hd.rest j (hidle j)
    rw [Registry.workerId, Registry.workerId, hhandle]
    cases c.dispatch.registry.handles[j]? <;> rfl
  refine List.map_congr_left fun numbered _ => ?_
  rw [RoundOutcome.ofDispatch, RoundOutcome.ofDispatch, hresults,
    RoundOutcome.collect_congr hids]

/-- Two calls of one round at the same time: one worker answers, the other lets the deadline pass. -/
example : ∃ c : Traffic, Traffic.Happens (Registry.errands [⟨⟨[3, 4], 0⟩, [0, 1], 0, some 9⟩])
    ⟨[.fresh "left" (.fresh 1000 .silent [] 0), .fresh "right" (.fresh 1000 .silent [] 0)], [0, 1]⟩
    c ∧ c.dispatch.results.map (Option.map (·.finish)) = [some 9, some 5] := by
  refine ⟨_, .finish 0 10 (.finish 1 6 (.arrive 1 ⟨5, Network.Script.result "right" 4⟩
    (.take 1 (.take 0 .begin rfl rfl rfl rfl) rfl rfl rfl rfl) rfl ?_) rfl rfl) rfl rfl, rfl⟩
  decide

end SumCluster
