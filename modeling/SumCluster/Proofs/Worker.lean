import SumCluster.Proofs.Handle.Service
import SumCluster.Worker

/-!
Workers at work. A worker that has answered everything that came, and is sent one more subtask,
answers it with what its mode computes, after the time that takes, and has then again answered
everything. So it is a worker that answers, to whoever holds its connection.
-/

namespace SumCluster

open Handle (framesOf)
open Wire (Connection Frame.limitOf Frame.defaultLimit Message SubtaskRequest SubtaskResult)

namespace Worker

/-- The longest body that a worker takes or sends. -/
def limit : Nat := Frame.limitOf Frame.defaultLimit

/-- The result of a subtask, from a worker with some id and mode. -/
def resultOf (workerId : String) (mode : ComputeMode) (q : SubtaskRequest) : SubtaskResult :=
  ⟨(compute mode q.values q.delayMs).value, workerId⟩

/-- A subtask that fits the frames of a worker, and so does its result. -/
structure Takes (workerId : String) (mode : ComputeMode) (q : SubtaskRequest) : Prop where
  request : (Message.subtaskRequest q).toBody.length ≤ limit
  result : (Message.subtaskResult (resultOf workerId mode q)).toBody.length ≤ limit

/-- A worker that has answered everything that came. -/
structure Idle (w : Worker) : Prop where
  sound : w.connection.Sound
  limit : w.connection.limit = Worker.limit
  read : w.connection.stream = []
  opened : w.connection.closed = false
  working : w.ended = none

theorem limit_le : limit ≤ Wire.Frame.longest := Wire.Frame.limitOf_le _

theorem idle_fresh (workerId : String) (mode : ComputeMode) : (fresh workerId mode).Idle :=
  ⟨Connection.sound_fresh _, rfl, rfl, rfl, rfl⟩

variable {w : Worker} {q : SubtaskRequest}

/-! ### One subtask -/

theorem answer_of_le (h : (Message.subtaskResult (w.result q)).toBody.length ≤ w.connection.limit) :
    w.answer q = { w with
      busy := w.busy + (compute w.mode q.values q.delayMs).slept
      sent := w.sent ++ [(w.busy + (compute w.mode q.values q.delayMs).slept,
        (Message.subtaskResult (w.result q)).frame)] } := by
  rw [answer, Wire.Frame.encode, if_pos (show _ ≤ w.connection.decoder.limit from h)]
  rfl

theorem serve_of_waits {c : Connection} (h : w.ended = none)
    (hrecv : w.connection.recv = (none, c)) (fuel : Nat) :
    w.serve (fuel + 1) = { w with connection := c } := by
  rw [Worker.serve, if_neg (by rw [h]; decide), hrecv]

theorem serve_of_message {c : Connection} {m : Message} (h : w.ended = none)
    (hrecv : w.connection.recv = (some (.ok (some m)), c)) (fuel : Nat) :
    w.serve (fuel + 1) = Worker.serve fuel ({ w with connection := c }.take m) := by
  rw [Worker.serve, if_neg (by rw [h]; decide), hrecv]

/-- Nothing is left to say: only the connection is looked at. -/
theorem Idle.serve (h : w.Idle) (fuel : Nat) : ∃ c, w.serve fuel = { w with connection := c } ∧
    { w with connection := c }.Idle := by
  cases fuel with
  | zero => exact ⟨w.connection, rfl, h⟩
  | succ fuel =>
    have hshort : Wire.Frame.front w.connection.limit w.connection.stream = .short := by
      rw [h.read]
      rfl
    obtain ⟨c, hrecv, hst⟩ := h.sound.recv.of_short hshort h.opened
    exact ⟨c, serve_of_waits h.working hrecv fuel, hst.sound, hst.limit.trans h.limit,
      hst.stream.trans h.read, hst.closed.trans h.opened, h.working⟩

/-- A subtask comes in whole and is answered. -/
theorem Idle.feed (h : w.Idle) (hq : Takes w.workerId w.mode q) : ∃ c,
    w.feed (Message.subtaskRequest q).frame = { w.answer q with connection := c } ∧
      { w.answer q with connection := c }.Idle := by
  have hcome : (w.connection.arrive (Message.subtaskRequest q).frame).stream =
      (Message.subtaskRequest q).frame := by
    rw [Connection.stream_arrive, h.read, h.opened]
    rfl
  have hfront : Wire.Frame.front (w.connection.arrive (Message.subtaskRequest q).frame).limit
      (w.connection.arrive (Message.subtaskRequest q).frame).stream =
        .whole (Message.subtaskRequest q).toBody [] := by
    rw [hcome, Connection.limit_arrive, h.limit]
    exact Message.front_frame hq.request limit_le
  have hbody := Message.ofBody_toBody_of_le (Nat.le_trans hq.request limit_le)
  obtain ⟨c, hrecv, hlimit, hclosed, hstream, hsound⟩ :=
    (h.sound.arrive (Message.subtaskRequest q).frame).recv.of_whole hfront
  have hlimit' : c.limit = Worker.limit := by rw [hlimit, Connection.limit_arrive, h.limit]
  have hanswer : { w with connection := c }.answer q = { w.answer q with connection := c } := by
    rw [answer_of_le (w := { w with connection := c }) (hlimit' ▸ hq.result),
      answer_of_le (h.limit ▸ hq.result)]
    rfl
  have hidle : { w.answer q with connection := c }.Idle := by
    refine ⟨hsound _ hbody, hlimit', hstream, ?_, ?_⟩
    · exact hclosed.trans ((Connection.closed_arrive _ _).trans h.opened)
    · rw [answer_of_le (h.limit ▸ hq.result)]
      exact h.working
  rw [hbody] at hrecv
  rw [Worker.feed, resume, serve_of_message
    (w := { w with connection := w.connection.arrive (Message.subtaskRequest q).frame })
    h.working hrecv]
  change ∃ c', Worker.serve _ ({ w with connection := c }.answer q) = _ ∧ _
  rw [hanswer]
  exact hidle.serve _

/-! ### All subtasks -/

/-- A worker keeps answering. -/
theorem Idle.feeds (qs : List SubtaskRequest) {w : Worker} (h : w.Idle)
    (hqs : ∀ q ∈ qs, Takes w.workerId w.mode q) :
    ((framesOf qs).foldl Worker.feed w).Idle ∧
      ((framesOf qs).foldl Worker.feed w).workerId = w.workerId ∧
      ((framesOf qs).foldl Worker.feed w).mode = w.mode := by
  induction qs generalizing w with
  | nil => exact ⟨h, rfl, rfl⟩
  | cons q qs ih =>
    have hq := hqs q List.mem_cons_self
    obtain ⟨c, hfeed, hidle⟩ := h.feed hq
    have hanswer := answer_of_le (w := w) (q := q) (h.limit ▸ hq.result)
    have hsame : (w.feed (Message.subtaskRequest q).frame).workerId = w.workerId ∧
        (w.feed (Message.subtaskRequest q).frame).mode = w.mode := by
      rw [hfeed, hanswer]
      exact ⟨rfl, rfl⟩
    obtain ⟨hrest, hid, hmode⟩ := ih (hfeed ▸ hidle) fun p hp => by
      rw [hsame.1, hsame.2]
      exact hqs p (List.mem_cons_of_mem _ hp)
    exact ⟨hrest, hid.trans hsame.1, hmode.trans hsame.2⟩

/-- What a worker sets off when it takes one more subtask. -/
theorem reaction_concat {workerId : String} {mode : ComputeMode} {qs : List SubtaskRequest}
    (hqs : ∀ p ∈ qs, Takes workerId mode p) (hq : Takes workerId mode q) :
    reaction workerId mode (framesOf (qs ++ [q])) =
      [⟨(compute mode q.values q.delayMs).slept,
        .bytes (Message.subtaskResult (resultOf workerId mode q)).frame⟩] := by
  obtain ⟨hidle, hid, hmode⟩ := Idle.feeds qs (idle_fresh workerId mode) hqs
  have hframes : framesOf (qs ++ [q]) = framesOf qs ++ [(Message.subtaskRequest q).frame] := by
    simp [framesOf]
  rw [reaction, hframes, List.dropLast_concat, List.foldl_append, List.foldl_cons, List.foldl_nil]
  generalize (framesOf qs).foldl Worker.feed (fresh workerId mode) = w at hidle hid hmode ⊢
  obtain rfl : w.workerId = workerId := hid
  obtain rfl : w.mode = mode := hmode
  obtain ⟨c, hfeed, _⟩ := hidle.feed hq
  rw [hfeed, answer_of_le (hidle.limit ▸ hq.result)]
  simp [hidle.working, resultOf, result]

end Worker

/-! ### The leader's side -/

namespace Handle

/-- A handle at rest on a worker. -/
structure Employs (h : Handle) (mode : ComputeMode) : Prop where
  usable : h.Usable
  ready : h.link.Ready
  peer : h.link.peer = Worker.peer h.workerId mode
  taken : ∃ qs, h.link.taken = framesOf qs ∧ ∀ q ∈ qs, Worker.Takes h.workerId mode q

/-- A subtask that goes through: it fits the frames of both ends, its result does, and the worker is
done in time. -/
structure Carries (h : Handle) (mode : ComputeMode) (limit : Option Nanos) (q : SubtaskRequest) :
    Prop where
  takes : Worker.Takes h.workerId mode q
  request : (Message.subtaskRequest q).toBody.length ≤ h.link.limit
  result : (Message.subtaskResult (Worker.resultOf h.workerId mode q)).toBody.length ≤ h.link.limit
  prompt : ∀ t, limit = some t → (compute mode q.values q.delayMs).slept ≤ t

/-- Without a deadline, a subtask goes through if there is room for its values and for the id. -/
theorem carries_of_short {h : Handle} {mode : ComputeMode} {q : SubtaskRequest} {n : Nat}
    (hlimit : h.link.limit = n) (hn : n ≤ Worker.limit) (values : 15 + 5 * q.values.length ≤ n)
    (workerId : 15 + h.workerId.utf8ByteSize ≤ n) : h.Carries mode none q := by
  have hrequest : (Message.subtaskRequest q).toBody.length ≤ n :=
    Nat.le_trans (Message.length_subtaskRequest_le q) values
  have hresult : (Message.subtaskResult (Worker.resultOf h.workerId mode q)).toBody.length ≤ n :=
    Nat.le_trans (Message.length_subtaskResult_le _) workerId
  rw [← hlimit] at hrequest hresult hn
  exact ⟨⟨Nat.le_trans hrequest hn, Nat.le_trans hresult hn⟩, hrequest, hresult, nofun⟩

/-- A worker at the other end answers with what its mode computes. -/
theorem Employs.serves {h : Handle} {mode : ComputeMode} (he : h.Employs mode)
    (limit : Option Nanos) : h.Serves (h.Carries mode limit)
      (fun q => (compute mode q.values q.delayMs).value) limit := by
  refine ⟨he.usable, he.ready, fun q hq => hq.request, ?_⟩
  intro more q hmore hq
  obtain ⟨qs, htaken, hqs⟩ := he.taken
  have hall : ∀ p ∈ qs ++ more, Worker.Takes h.workerId mode p := by
    intro p hp
    rcases List.mem_append.mp hp with hp | hp
    · exact hqs p hp
    · exact (hmore p hp).takes
  have hreact : h.link.peer.react (h.link.taken ++ framesOf (more ++ [q])) =
      [⟨(compute mode q.values q.delayMs).slept,
        .bytes (Message.subtaskResult (Worker.resultOf h.workerId mode q)).frame⟩] := by
    have hframes : h.link.taken ++ framesOf (more ++ [q]) = framesOf ((qs ++ more) ++ [q]) := by
      rw [htaken]
      simp [framesOf]
    rw [he.peer, hframes]
    exact Worker.reaction_concat hall hq.takes
  rw [hreact]
  refine ⟨?_, ⟨h.workerId, hq.result, by simp [Network.spoken]; rfl⟩, ?_⟩
  · intro a ha
    obtain rfl := List.mem_singleton.mp ha
    exact ⟨_, rfl, Message.frame_ne_nil _⟩
  · intro t ht a ha
    obtain rfl := List.mem_singleton.mp ha
    exact hq.prompt t ht

end Handle

end SumCluster
