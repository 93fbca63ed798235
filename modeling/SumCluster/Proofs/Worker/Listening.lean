import SumCluster.Proofs.Handle.Limit
import SumCluster.Proofs.Worker.Session

/-!
What a worker takes in. Its connection has the limit that it began with, and nothing goes wrong on
it as long as the work goes on. So at any stage of the work a message that fits the limit is handed
out when its last byte comes, however it was cut into pieces.
-/

namespace SumCluster

open Wire

/-- A message, or word that more has to come, leaves a connection on which nothing has gone wrong. -/
theorem Wire.Connection.Receives.sound {c : Connection} {answer : Option Frame.Outcome × Connection}
    (h : c.Receives answer) (hopen : c.closed = false) :
    answer.2.closed = false ∧
      (answer.1 = none ∨ (∃ m, answer.1 = some (.ok (some m))) → answer.2.Sound) := by
  cases h with
  | whole hfront limit closed stream sound =>
    refine ⟨closed.trans hopen, ?_⟩
    rintro (h | ⟨m, h⟩)
    · cases h
    · exact sound m (Message.ofBody_of_map (Option.some.inj h))
  | tooLong hfront limit closed =>
    refine ⟨closed.trans hopen, ?_⟩
    rintro (h | ⟨m, h⟩) <;> cases h
  | ended hfront hclosed => exact absurd (hopen.symm.trans hclosed) nofun
  | waits hfront _ stays => exact ⟨stays.closed.trans hopen, fun _ => stays.sound⟩

namespace Worker

variable {w : Worker}

/-- A worker whose connection is as it should be. -/
structure Listens (w : Worker) : Prop where
  limit : w.connection.limit = Worker.limit
  opened : w.connection.closed = false
  sound : w.ended = none → w.connection.Sound

theorem listens_fresh (workerId : String) (mode : ComputeMode) : (fresh workerId mode).Listens :=
  ⟨rfl, rfl, fun _ => Connection.sound_fresh _⟩

theorem connection_take (w : Worker) (m : Message) : (w.take m).connection = w.connection := by
  unfold take
  split
  · exact connection_answer ..
  · rfl

theorem Listens.serve (h : w.Listens) (fuel : Nat) : (w.serve fuel).Listens := by
  induction fuel generalizing w with
  | zero => exact h
  | succ fuel ih =>
    by_cases hended : w.ended = none
    · obtain ⟨hopen, hsound⟩ := (h.sound hended).recv.sound h.opened
      have hlimit := w.connection.limit_recv.trans h.limit
      rcases hrecv : w.connection.recv with ⟨_ | e | _ | m, c⟩ <;>
        rw [hrecv] at hopen hsound hlimit
      · rw [serve_of_waits hended hrecv]
        exact ⟨hlimit, hopen, fun _ => hsound (.inl rfl)⟩
      · rw [serve_of_other hended hrecv nofun]
        exact ⟨hlimit, hopen, nofun⟩
      · rw [serve_of_other hended hrecv nofun]
        exact ⟨hlimit, hopen, nofun⟩
      · rw [serve_of_message hended hrecv]
        have hc := connection_take { w with connection := c } m
        refine ih ⟨?_, ?_, fun _ => ?_⟩ <;> rw [hc]
        · exact hlimit
        · exact hopen
        · exact hsound (.inr ⟨m, rfl⟩)
    · rw [serve_of_ended (Option.isSome_iff_ne_none.mpr hended)]
      exact h

theorem Listens.feed (h : w.Listens) (chunk : Bytes) : (w.feed chunk).Listens := by
  have harrived : { w with connection := w.connection.arrive chunk }.Listens :=
    ⟨(Connection.limit_arrive ..).trans h.limit, (Connection.closed_arrive ..).trans h.opened,
      fun hended => (h.sound hended).arrive chunk⟩
  exact harrived.serve _

/-- A worker listens at every stage of its work. -/
theorem listens_foldl_feed (workerId : String) (mode : ComputeMode) (chunks : List Bytes) :
    (chunks.foldl feed (fresh workerId mode)).Listens := by
  induction chunks using List.reverseRecOn with
  | nil => exact listens_fresh workerId mode
  | append_singleton chunks chunk ih =>
    rw [List.foldl_append]
    exact ih.feed chunk

/-- Workers take this message in: whatever one has been sent and however it came, if it is still at
work and the next bytes are the last ones of the message's frame, its connection hands the message
out and keeps what is behind the frame. -/
def Accepts (m : Message) : Prop :=
  ∀ (workerId : String) (mode : ComputeMode) (chunks : List Bytes) (chunk rest : Bytes),
    (chunks.foldl feed (fresh workerId mode)).ended = none →
    (chunks.foldl feed (fresh workerId mode)).connection.stream ++ chunk = m.frame ++ rest →
    ∃ c, ((chunks.foldl feed (fresh workerId mode)).connection.arrive chunk).recv =
      (some (.ok (some m)), c) ∧ c.stream = rest

theorem accepts_of_le {m : Message} (fits : m.toBody.length ≤ limit) : Accepts m := by
  intro workerId mode chunks chunk rest working comes
  have h := listens_foldl_feed workerId mode chunks
  generalize chunks.foldl feed (fresh workerId mode) = w at h working comes ⊢
  have hfront : Frame.front (w.connection.arrive chunk).limit (w.connection.arrive chunk).stream =
      .whole m.toBody rest := by
    rw [Connection.stream_arrive, h.opened, Connection.limit_arrive, h.limit]
    exact (congrArg _ comes).trans (Frame.front_wrap fits limit_le rest)
  obtain ⟨c, hrecv, _, _, hstream, _⟩ := ((h.sound working).arrive chunk).recv.of_whole hfront
  rw [Message.ofBody_toBody_of_le (Nat.le_trans fits limit_le)] at hrecv
  exact ⟨c, hrecv, hstream⟩

end Worker

end SumCluster
