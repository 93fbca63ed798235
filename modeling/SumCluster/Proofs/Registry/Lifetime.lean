import SumCluster.Proofs.Handle.Lifetime
import SumCluster.Proofs.Dispatch.Moves
import SumCluster.Proofs.Registry.History

/-!
What a registry does to one handle. Each act comes down to uses of the handle, one after the other:
a call on it, alone or in a round, the end of the trust when it is put out, the disappearance of its
worker. Main statement: from its registration on, a handle that has failed is dead for good, and its
calls are answered first and fail from then on.
-/

namespace SumCluster

open Network (Link)
open Wire (SubtaskRequest SubtaskResult)

/-! ### Uses and replies -/

/-- The uses of a handle that a move comes to. -/
def Move.uses (errands : List Errand) (h : HandleId) (d : Dispatch) : Move → List Handle.Use
  | .call i => match errands[i]? with
    | some e => if e.handle = h then [.call e.start e.request e.limit] else []
    | none => []
  | .settle i => match errands[i]?, d.results[i]? with
    | some e, some (some ⟨.error _, _⟩) => if e.handle = h then [.kill] else []
    | _, _ => []

/-- What a registry replies to a call, if the call is on some handle. -/
def Registry.heard (r : Registry) (h h' : HandleId) (start : Nanos) (request : SubtaskRequest)
    (limit : Option Nanos) : List Reply :=
  if h' = h then (r.call h' start request limit).1.toList else []

/-- The replies of the calls on a handle that a move makes. -/
def Move.replies (errands : List Errand) (h : HandleId) (d : Dispatch) : Move → List Reply
  | .call i => match errands[i]? with
    | some e => d.registry.heard h e.handle e.start e.request e.limit
    | none => []
  | .settle _ => []

namespace Dispatch

/-- The uses of a handle that moves come to. -/
def uses (errands : List Errand) (h : HandleId) (d : Dispatch) : List Move → List Handle.Use
  | [] => []
  | m :: moves => m.uses errands h d ++ (d.step errands m).uses errands h moves

/-- The replies of the calls on a handle that moves make, in the order in which they are made. -/
def replies (errands : List Errand) (h : HandleId) (d : Dispatch) : List Move → List Reply
  | [] => []
  | m :: moves => m.replies errands h d ++ (d.step errands m).replies errands h moves

end Dispatch

namespace Registry

/-- The uses of a handle that an act comes to. -/
def Act.uses (r : Registry) (h : HandleId) : Act → List Handle.Use
  | .call h' start request limit => if h' = h then [.call start request limit] else []
  | .cut h' t => if h' = h then [.cut t] else []
  | .dispatch moves rounds => (Dispatch.begin r (errands rounds)).uses (errands rounds) h moves
  | a => ((a.ousts r).filter (· = h)).map fun _ => .kill

/-- The replies of the calls on a handle that an act makes. -/
def Act.replies (r : Registry) (h : HandleId) : Act → List Reply
  | .call h' start request limit => r.heard h h' start request limit
  | .dispatch moves rounds => (Dispatch.begin r (errands rounds)).replies (errands rounds) h moves
  | _ => []

/-- The uses of a handle that acts come to. -/
def uses (r : Registry) (h : HandleId) : List Act → List Handle.Use
  | [] => []
  | a :: acts => a.uses r h ++ (r.act a).uses h acts

/-- The replies of the calls on a handle that acts make, in the order in which they get the
connection. -/
def replies (r : Registry) (h : HandleId) : List Act → List Reply
  | [] => []
  | a :: acts => a.replies r h ++ (r.act a).replies h acts

/-- Between two registries, a handle has gone through some uses, and these were the replies. -/
structure Undergoes (h : HandleId) (us : List Handle.Use) (replies : List Reply)
    (r r' : Registry) : Prop where
  handle : r'.handles[h]? = r.handles[h]?.map (·.after us)
  replies : ∀ handle, r.handles[h]? = some handle → handle.replies us = replies

variable {r r' r'' : Registry} {h : HandleId} {us vs : List Handle.Use} {rs ts : List Reply}

theorem Undergoes.of_eq (heq : r'.handles[h]? = r.handles[h]?) : Undergoes h [] [] r r' :=
  ⟨heq.trans Option.map_id'.symm, fun _ _ => rfl⟩

theorem Undergoes.congr (hu : Undergoes h us rs r r')
    (heq : r''.handles[h]? = r'.handles[h]?) : Undergoes h us rs r r'' :=
  ⟨heq.trans hu.handle, hu.replies⟩

theorem Undergoes.trans (h₁ : Undergoes h us rs r r') (h₂ : Undergoes h vs ts r' r'') :
    Undergoes h (us ++ vs) (rs ++ ts) r r'' := by
  refine ⟨?_, fun handle hh => ?_⟩
  · rw [h₂.handle, h₁.handle, Option.map_map]
    congr 1
    funext handle
    exact (Handle.after_append handle us vs).symm
  · have hmid : r'.handles[h]? = some (handle.after us) := by
      rw [h₁.handle, hh]
      rfl
    rw [Handle.replies_append, h₁.replies handle hh, h₂.replies _ hmid]

/-! ### One act -/

/-- What is no call is replied nothing. -/
theorem undergoes_update (r : Registry) (h' h : HandleId) {u : Handle.Use}
    (quiet : ∀ handle : Handle, handle.reply? u = none) :
    Undergoes h (if h' = h then [u] else []) [] r (r.update h' (·.use u)) := by
  by_cases heq : h' = h
  · rw [if_pos heq]
    refine ⟨?_, fun handle _ => ?_⟩
    · rw [handles_update, if_pos heq]
      rfl
    · rw [Handle.replies, quiet]
      rfl
  · rw [if_neg heq]
    exact .of_eq (handles_update_of_ne heq _)

theorem undergoes_kill (r : Registry) (h' h : HandleId) :
    Undergoes h (if h' = h then [.kill] else []) [] r (r.kill h') :=
  undergoes_update r h' h fun _ => rfl

theorem undergoes_foldl_kill (hs : List HandleId) (r : Registry) (h : HandleId) :
    Undergoes h ((hs.filter (· = h)).map fun _ => .kill) [] r (hs.foldl kill r) := by
  induction hs generalizing r with
  | nil => exact .of_eq rfl
  | cons h' hs ih =>
    have hall := (undergoes_kill r h' h).trans (ih (r.kill h'))
    by_cases heq : h' = h
    · rw [if_pos heq] at hall
      rw [List.filter_cons, if_pos (decide_eq_true heq)]
      exact hall
    · rw [if_neg heq] at hall
      rw [List.filter_cons, if_neg (mt of_decide_eq_true heq)]
      exact hall

theorem undergoes_call (r : Registry) (h' h : HandleId) (start : Nanos) (request : SubtaskRequest)
    (limit : Option Nanos) :
    Undergoes h (if h' = h then [.call start request limit] else [])
      (r.heard h h' start request limit) r (r.call h' start request limit).2 := by
  by_cases heq : h' = h
  · subst heq
    rw [heard, if_pos rfl, if_pos rfl, call]
    cases hh : r.handles[h']? with
    | none =>
      refine ⟨by rw [hh]; rfl, fun handle hsome => ?_⟩
      exact absurd (hsome.symm.trans hh) (Option.some_ne_none handle)
    | some handle =>
      refine ⟨?_, fun handle' hsome => ?_⟩
      · rw [handles_update, if_pos rfl, hh]
        rfl
      · obtain rfl := Option.some.inj (hh.symm.trans hsome)
        exact List.append_nil _
  · rw [heard, if_neg heq, if_neg heq]
    exact .of_eq (handles_call_of_ne heq ..)

theorem undergoes_ousts (r : Registry) (h : HandleId) (a : Act) :
    Undergoes h (((a.ousts r).filter (· = h)).map fun _ => .kill) [] r ((a.ousts r).foldl kill r) :=
  undergoes_foldl_kill _ r h

end Registry

namespace Dispatch

variable {errands : List Errand}

theorem undergoes_step (d : Dispatch) (h : HandleId) (m : Move) :
    Registry.Undergoes h (m.uses errands h d) (m.replies errands h d) d.registry
      (d.step errands m).registry := by
  cases m with
  | call i =>
    cases he : errands[i]? with
    | none =>
      rw [step_call_of_none he, Move.uses, Move.replies, he]
      exact .of_eq rfl
    | some e =>
      rw [step_call he, Move.uses, Move.replies, he]
      exact Registry.undergoes_call ..
  | settle i =>
    rw [Move.replies]
    rcases he : errands[i]? with _ | e
    · simp only [step, Move.uses, he]
      exact .of_eq rfl
    · rcases hresult : d.results[i]? with _ | _ | ⟨u | answer, t⟩ <;>
        simp only [step, Move.uses, he, hresult]
      · exact .of_eq rfl
      · exact .of_eq rfl
      · exact (Registry.undergoes_kill d.registry e.handle h).congr rfl
      · exact .of_eq rfl

theorem undergoes_run (moves : List Move) (d : Dispatch) (h : HandleId) :
    Registry.Undergoes h (d.uses errands h moves) (d.replies errands h moves) d.registry
      (d.run errands moves).registry := by
  induction moves generalizing d with
  | nil => exact .of_eq rfl
  | cons m moves ih => exact (undergoes_step d h m).trans (ih (d.step errands m))

end Dispatch

namespace Registry

variable {r : Registry} {h : HandleId}

/-- An act does to a handle what its uses say. -/
theorem undergoes_act (hlt : h < r.handles.length) (a : Act) :
    Undergoes h (a.uses r h) (a.replies r h) r (r.act a) := by
  have houst := undergoes_ousts r h a
  cases a with
  | register id link =>
    refine houst.congr ?_
    rw [act, Act.ousts]
    cases hf : r.find? id with
    | none =>
      rw [register_of_none hf]
      exact List.getElem?_append_left hlt
    | some old =>
      rw [register_of_some hf]
      exact List.getElem?_append_left (by rwa [kill, length_handles_update])
  | remove id =>
    refine houst.congr ?_
    rw [act, Act.ousts, remove]
    cases r.find? id <;> rfl
  | deregister h' => exact houst.congr rfl
  | clear => exact houst.congr rfl
  | call h' start request limit => exact undergoes_call r h' h start request limit
  | cut h' t => exact undergoes_update r h' h fun _ => rfl
  | dispatch moves rounds => exact Dispatch.undergoes_run moves (.begin r (errands rounds)) h

theorem undergoes_acts (hlt : h < r.handles.length) (acts : List Act) :
    Undergoes h (r.uses h acts) (r.replies h acts) r (acts.foldl act r) := by
  induction acts generalizing r with
  | nil => exact .of_eq rfl
  | cons a acts ih =>
    exact (undergoes_act hlt a).trans (ih (Nat.lt_of_lt_of_le hlt (precedes_act r a).count))

theorem getElem?_register (r : Registry) (id : String) (link : Link) :
    (r.register id link).2.handles[(r.register id link).1]? = some (.fresh id link) := by
  cases hf : r.find? id with
  | none =>
    rw [register_of_none hf]
    exact List.getElem?_concat_length ..
  | some old =>
    have hcount := length_handles_update r old Handle.kill
    rw [register_of_some hf, ← hcount]
    exact List.getElem?_concat_length ..

theorem length_handles_register (r : Registry) (id : String) (link : Link) :
    (r.register id link).2.handles.length = r.handles.length + 1 := by
  cases hf : r.find? id with
  | none =>
    rw [register_of_none hf]
    exact List.length_append
  | some old =>
    rw [register_of_some hf, ← length_handles_update r old Handle.kill]
    exact List.length_append

theorem isAlive_of_getElem? {handle : Handle} (hh : r.handles[h]? = some handle) :
    r.isAlive h = handle.alive := by
  rw [isAlive, hh]

/-- Trust that has ended does not come back. -/
theorem dead_after_acts (hlt : h < r.handles.length) (hdead : r.isAlive h = false)
    (acts : List Act) : (acts.foldl act r).isAlive h = false := by
  have hall := undergoes_acts hlt acts
  have hh := List.getElem?_eq_getElem hlt
  have hafter := hall.handle
  rw [hh] at hafter
  rw [isAlive_of_getElem? hh] at hdead
  rw [isAlive_of_getElem? hafter]
  exact Bool.eq_false_iff.mpr fun halive =>
    absurd (hdead.symm.trans (Handle.alive_after _ halive)) nofun

/-- From its registration on, whatever is done to the registry and whatever the worker does, a
handle that has failed is dead for good. What happens to it are uses, one after the other; whichever
came before, a call that fails leaves it dead, and a call that gets the connection while it is dead
is refused, with nothing of the connection changed but its clock. So the replies are answers first
and failures from then on, and of the subtasks the worker gets those of the answered calls and at
most one more. -/
theorem handle_fails_for_good (r : Registry) (id : String) (link : Link) (acts : List Act) :
    let h := (r.register id link).1
    let r' := acts.foldl act (r.register id link).2
    let us := (r.register id link).2.uses h acts
    r'.handles[h]? = some ((Handle.fresh id link).after us) ∧
    (r'.isAlive h = false → ∀ later : List Act, (later.foldl act r').isAlive h = false) ∧
    (∀ past start request limit, let handle := (Handle.fresh id link).after past
      (∀ u, (handle.call start request limit).1 = some (.error u) →
        (handle.call start request limit).2.alive = false) ∧
      (handle.alive = false → ∀ reply, (handle.call start request limit).1 = some reply →
        handle.call start request limit =
          (some (.error .abandoned), { handle with link := handle.link.advance start }))) ∧
    Unreachable.abandoned.toError id = .workerUnreachable id "connection already abandoned" ∧
    ∃ (answers : List SubtaskResult) (failures : List Unreachable) (k : Nat),
      (r.register id link).2.replies h acts = answers.map .ok ++ failures.map .error ∧
      answers.length ≤ k ∧ k ≤ answers.length + 1 ∧
      ((Handle.fresh id link).after us).link.taken =
        link.taken ++ Handle.framesOf ((Handle.requests us).take k) := by
  intro h r' us
  have hnew : (r.register id link).2.handles[h]? = some (.fresh id link) := getElem?_register ..
  have hlt : h < (r.register id link).2.handles.length := (List.getElem?_eq_some_iff.mp hnew).1
  have hlt' : h < r'.handles.length := Nat.lt_of_lt_of_le hlt (precedes_foldl_act acts _).count
  have hall := undergoes_acts hlt acts
  rw [← hall.replies _ hnew]
  refine ⟨?_, dead_after_acts hlt', ?_, rfl, Handle.replies_after _ us⟩
  · rw [hall.handle, hnew]
    rfl
  · intro past start request limit handle
    refine ⟨fun u hu => Handle.dead_of_failed hu, fun hdead reply hreply => ?_⟩
    have hheld : handle.held = false := Bool.eq_false_iff.mpr fun hheld => by
      rw [Handle.call_of_held hheld] at hreply
      exact absurd hreply nofun
    exact Handle.call_of_dead hheld hdead start

/-- A worker that answers once and hangs up when it is asked again. -/
def quitter : Link := .fresh 100 (Network.Script.worker "w" [.sum, .close]) [] 0

/-- Three calls on the one handle there is. -/
def threeCalls : List Act :=
  [.call 0 0 ⟨[2, 3], 0⟩ none, .call 0 5 ⟨[4], 0⟩ (some 7), .call 0 5 ⟨[6], 0⟩ none]

theorem handle_fails_for_good_quitter :
    let r := (empty.register "w" quitter).2
    r.replies 0 threeCalls = [.ok ⟨5, "w"⟩, .error .closed, .error .abandoned] ∧
    (threeCalls.foldl act r).isAlive 0 = false ∧
    ∀ later : List Act, (later.foldl act (threeCalls.foldl act r)).isAlive 0 = false := by
  intro r
  have hreplies : r.replies 0 threeCalls =
      [.ok ⟨5, "w"⟩, .error .closed, .error .abandoned] := rfl
  have hdead : (threeCalls.foldl act r).isAlive 0 = false := rfl
  exact ⟨hreplies, hdead, (handle_fails_for_good empty "w" quitter threeCalls).2.1 hdead⟩

end Registry

end SumCluster
