import SumCluster.Proofs.Dispatch.Eviction
import SumCluster.Proofs.Dispatch.FanOut
import SumCluster.Proofs.Session.Stages
import SumCluster.Proofs.Wire.Size
import SumCluster.Proofs.Worker.Listening

/-!
Room for subtasks. Whatever limit a leader sets, a task that it has heard had room in a frame, so
each of its shares has room too: the workers whose connections have the same limit are all sent
theirs, and a call on one of them fails because the handle was given up, because the worker was
gone, or after it got the subtask. A worker takes in all that the default limit allows.
-/

namespace SumCluster

open Network (Arrival Link Peer)
open Wire (Bytes Frame.encode Frame.limitOf Frame.defaultLimit Message SubtaskRequest TaskRequest)

/-- The subtask that a share of a task makes. -/
def Partition.subtask (p : Partition) (task : TaskRequest) : SubtaskRequest :=
  ⟨p.slice task.values, task.delayMs⟩

/-- A subtask is no longer than the body in which its task came. -/
theorem Partition.length_subtask_le {body : Bytes} {task : TaskRequest}
    (hread : Message.ofBody body = .ok (.taskRequest task)) (p : Partition) :
    (Message.subtaskRequest (p.subtask task)).toBody.length ≤ body.length :=
  Message.length_subtaskRequest_of_read hread (p.slice_sublist task.values)

/-- A task that is heard came in a body that the limit allows. -/
theorem Session.body_of_read {client : Link} {task : TaskRequest}
    (sound : client.connection.Sound) (h : (Session.read client).1 = some (.ok task)) :
    ∃ body, Message.ofBody body = .ok (.taskRequest task) ∧ body.length ≤ client.limit := by
  have hreads := read_reads sound
  generalize Session.read client = result at hreads h
  cases hreads with
  | task opens =>
    obtain rfl := Except.ok.inj (Option.some.inj h)
    obtain ⟨body, _, _, hfits, hbody⟩ := opens
    exact ⟨body, hbody, hfits⟩
  | other => cases h
  | waits => cases h

namespace Dispatch

variable {r : Registry} {errands : List Errand} {moves : List Move}

/-- The result of an errand comes from a call of it that was made on the way. -/
theorem call_of_result {i : Nat} {e : Errand} {result : Result} (he : errands[i]? = some e)
    (hresult : ((begin r errands).run errands moves).results[i]? = some (some result)) :
    ∃ before after, moves = before ++ .call i :: after ∧
      (((begin r errands).run errands before).registry.call
        e.handle e.start e.request e.limit).1 = some result.reply := by
  induction moves using List.reverseRecOn with
  | nil => exact absurd hresult ((recorded_begin r errands).pending i List.not_mem_nil _)
  | append_singleton moves m ih =>
    have earlier (h : ((begin r errands).run errands moves).results[i]? = some (some result)) :
        ∃ before after, moves ++ [m] = before ++ .call i :: after ∧
          (((begin r errands).run errands before).registry.call
            e.handle e.start e.request e.limit).1 = some result.reply := by
      obtain ⟨before, after, rfl, hcall⟩ := ih h
      exact ⟨before, after ++ [m], by simp, hcall⟩
    rw [run_concat] at hresult
    cases m with
    | settle j =>
      rw [results_settle] at hresult
      exact earlier hresult
    | call j =>
      by_cases hij : j = i
      · subst hij
        have hlt := (recorded_run r errands moves).lt_length he
        rw [step_call he, List.getElem?_set_self hlt] at hresult
        obtain ⟨reply, hreply, rfl⟩ := Option.map_eq_some_iff.mp (Option.some.inj hresult)
        exact ⟨moves, [], rfl, hreply⟩
      · refine earlier ?_
        cases he' : errands[j]? with
        | none => rwa [step_call_of_none he'] at hresult
        | some e' =>
          rw [step_call he', List.getElem?_set_ne hij] at hresult
          exact hresult

end Dispatch

namespace Registry

variable {r : Registry} {rounds : List Round} {moves : List Move}

/-- The limit of a connection is the same at all stages of all rounds. -/
theorem limit_dispatched {h : HandleId} {limit : Nat}
    (hlimit : ∀ handle, r.handles[h]? = some handle → handle.link.limit = limit) {handle : Handle}
    (hh : (r.dispatched moves rounds).registry.handles[h]? = some handle) :
    handle.link.limit = limit := by
  have hundergoes : Undergoes h _ _ r (r.dispatched moves rounds).registry :=
    Dispatch.undergoes_run moves (.begin r (errands rounds)) h
  obtain ⟨first, hfirst, rfl⟩ := Option.map_eq_some_iff.mp (hundergoes.handle.symm.trans hh)
  exact (first.limit_after _).trans (hlimit first hfirst)

/-- The subtask of an errand is that of a share of its round's task. -/
theorem request_of_mem_errands {e : Errand} {round : Round} (he : e ∈ errands rounds)
    (hround : rounds[e.round]? = some round) : ∃ p, e.request = Partition.subtask p round.task := by
  obtain ⟨number, own, hown, he⟩ := of_mem_errands he
  rw [Round.round_of_mem_errands he, hown] at hround
  obtain rfl := Option.some.inj hround
  obtain ⟨_, p, _, _, _, rfl⟩ := Round.of_mem_errands he
  exact ⟨p, rfl⟩

/-- The call of an errand that came to this reply: its subtask made a frame for the connection, and
the frame was handed over if the worker could be reached. -/
def SendsOut (r : Registry) (moves : List Move) (rounds : List Round) (i : Nat) (e : Errand)
    (reply : Reply) : Prop :=
  ∃ before after handle, moves = before ++ .call i :: after ∧
    (r.dispatched before rounds).registry.handles[e.handle]? = some handle ∧
    (handle.call e.start e.request e.limit).1 = some reply ∧
    Frame.encode handle.link.limit (.subtaskRequest e.request) =
      .ok (Message.subtaskRequest e.request).frame ∧
    (handle.Reached e.start → (handle.call e.start e.request e.limit).2.link.taken =
      handle.link.taken ++ [(Message.subtaskRequest e.request).frame])

/-- A call whose subtask fits the limit that the connection began with sends it out. -/
theorem sendsOut_of_result {i : Nat} {e : Errand} {result : Result} {limit : Nat}
    (he : (errands rounds)[i]? = some e)
    (hlimit : ∀ handle, r.handles[e.handle]? = some handle → handle.link.limit = limit)
    (fits : (Message.subtaskRequest e.request).toBody.length ≤ limit)
    (hresult : (r.dispatched moves rounds).results[i]? = some (some result)) :
    r.SendsOut moves rounds i e result.reply := by
  obtain ⟨before, after, hmoves, hcall⟩ := Dispatch.call_of_result he hresult
  rw [← dispatched] at hcall
  cases hh : (r.dispatched before rounds).registry.handles[e.handle]? with
  | none =>
    rw [call, hh] at hcall
    cases hcall
  | some handle =>
    rw [call_of_handle hh] at hcall
    have hfits : (Message.subtaskRequest e.request).toBody.length ≤ handle.link.limit := by
      rw [limit_dispatched hlimit hh]
      exact fits
    have hfree : handle.held = false := by
      refine Bool.eq_false_iff.mpr fun hheld => ?_
      rw [Handle.call_of_held hheld] at hcall
      cases hcall
    refine ⟨before, after, handle, hmoves, hh, hcall, if_pos hfits, fun hreached => ?_⟩
    rw [Handle.taken_call hfree hfits, if_pos hreached]
    rfl

end Registry

/-- No subtask is longer than its task was, whatever form the task came in, and workers take in all
that comes from tasks that the default limit allows. In a round for a task that was heard, a call on
a connection with the leader's limit never fails for the length of its subtask; and whoever leaves
the registry leaves because a call on it has failed. -/
theorem Registry.subtask_has_room (setting : Nat) :
    (∀ (body : Bytes) (task : TaskRequest) (n : Nat) (p : Partition),
      Message.ofBody body = .ok (.taskRequest task) → body.length ≤ setting →
      p ∈ partition task.values.length n →
        (Message.subtaskRequest (p.subtask task)).toBody.length ≤ body.length ∧
        (setting ≤ Frame.defaultLimit → Worker.Accepts (.subtaskRequest (p.subtask task)))) ∧
    (∀ (workerId : String) (mode : ComputeMode) (chunks : List Bytes),
      (chunks.foldl Worker.feed (.fresh workerId mode)).connection.limit = Frame.defaultLimit) ∧
    ∀ (peer : Peer) (coming : List Arrival) (now : Nanos) (task : TaskRequest),
      (Session.read (.fresh setting peer coming now)).1 = some (.ok task) →
      ∀ (r : Registry) (moves : List Move) (rounds : List Round),
        (∀ (i : Nat) (e : Errand) (round : Round) (result : Result),
          rounds[e.round]? = some round → round.task = task →
          (errands rounds)[i]? = some e →
          (∀ handle, r.handles[e.handle]? = some handle →
            handle.link.limit = Frame.limitOf setting) →
          (r.dispatched moves rounds).results[i]? = some (some result) →
          r.SendsOut moves rounds i e result.reply) ∧
        ((Dispatch.called moves).Nodup → ∀ h ∈ r.members,
          h ∉ (r.dispatchWith moves rounds).2.members →
          ∃ (i : Nat) (e : Errand) (u : Unreachable) (t : Nanos),
            (errands rounds)[i]? = some e ∧ e.handle = h ∧
            (r.dispatched moves rounds).results[i]? = some (some ⟨.error u, t⟩)) := by
  refine ⟨fun body task n p hread hfits _ => ?_, fun workerId mode chunks => ?_, ?_⟩
  · have hle := p.length_subtask_le hread
    refine ⟨hle, fun hsetting => Worker.accepts_of_le ?_⟩
    calc _ ≤ body.length := hle
      _ ≤ Frame.defaultLimit := Nat.le_trans hfits hsetting
      _ = Worker.limit := by decide
  · exact (Worker.listens_foldl_feed workerId mode chunks).limit
  · intro peer coming now task hread r moves rounds
    refine ⟨fun i e round result hround htask he hlimit hresult => ?_, fun once h hm hgone => ?_⟩
    · obtain ⟨body, hbody, hfits⟩ :=
        Session.body_of_read (Wire.Connection.sound_fresh setting) hread
      obtain ⟨p, hp⟩ := request_of_mem_errands (List.mem_of_getElem? he) hround
      refine sendsOut_of_result he hlimit ?_ hresult
      rw [hp, htask]
      exact Nat.le_trans (p.length_subtask_le hbody) hfits
    · have hspares := Dispatch.spares_run r (errands rounds) moves once
      obtain ⟨i, e, u, t, he, hresult, hhandle⟩ :=
        Dispatch.mem_failing.mp (not_not.mp fun hn => hgone (hspares.stays h hm hn))
      exact ⟨i, e, u, t, he, hhandle, hresult⟩

/-- A task of two values with its kind in four bytes and its count in two. -/
def Wire.wideTask : Bytes := [0xfc, 1, 0, 0, 0, 0xfb, 2, 0, 4, 6, 0]

/-- Two workers whose connections take no longer body than that; one leaves when it gets a
subtask. -/
def Registry.tight : Registry :=
  ⟨[.fresh "stays" (.fresh 11 (Network.Script.worker "stays" []) [] 0),
    .fresh "leaves" (.fresh 11 (Network.Script.worker "leaves" [.close]) [] 0)], [0, 1]⟩

/-- The round for the task. -/
def Round.tight : Round := ⟨⟨[2, 3], 0⟩, [0, 1], 0, none⟩

/-- The subtask has room, workers take it in, and the one who leaves has been sent it. -/
theorem Registry.subtask_has_room_tight :
    (Message.subtaskRequest ⟨[2], 0⟩).toBody.length ≤ 11 ∧
    Worker.Accepts (.subtaskRequest ⟨[2], 0⟩) ∧
    ∃ i e u, e.handle = 1 ∧ tight.SendsOut (Dispatch.inTurn 2) [.tight] i e (.error u) := by
  obtain ⟨hroom, _, hrounds⟩ := subtask_has_room 11
  obtain ⟨hle, haccepts⟩ := hroom Wire.wideTask ⟨[2, 3], 0⟩ 2 ⟨0, 0, 1⟩
    (by decide) (by decide) (by decide)
  obtain ⟨hsends, hleaves⟩ := hrounds .silent [⟨0, .bytes (Wire.Frame.wrap Wire.wideTask)⟩] 0
    ⟨[2, 3], 0⟩ (by decide +kernel) tight (Dispatch.inTurn 2) [.tight]
  obtain ⟨i, e, u, t, he, hhandle, hresult⟩ :=
    hleaves (by decide) 1 (by decide) (by decide +kernel)
  have hround : e.round = 0 :=
    (show ∀ e ∈ errands [.tight], e.round = 0 by decide) e (List.mem_of_getElem? he)
  refine ⟨hle, haccepts (by decide), i, e, u, hhandle, ?_⟩
  refine hsends i e .tight ⟨.error u, t⟩ (by rw [hround]; rfl) rfl he (fun handle hh => ?_) hresult
  rw [hhandle] at hh
  cases hh
  rfl

end SumCluster
