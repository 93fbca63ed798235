import SumCluster.Client
import SumCluster.Proofs.Network.Telling

/-!
What a client reports. It sends one frame, its task, and reports what comes first of all that the
leader writes: a response or a refusal as the outcome, any other message as out of place, an end
before any frame as a closed connection, and everything else as the error that it is. Main statement:
that is so for every stream in every piecing, whatever comes behind the first frame, and of a task
that is too long nothing is written.
-/

namespace SumCluster.Client

open Network (Arrival Link Peer ends spoken)
open Wire
open Wire.Frame (defaultLimit front told ending outcome)

/-- The connection of a client that is about to send its task. -/
def opening (peer : Peer) (coming : List Arrival) (now : Nanos) : Link :=
  .fresh defaultLimit peer coming now

/-- All that happens on the way to a client that sends a task: what the leader began with, and what
the task sets off. -/
def arrivals (peer : Peer) (coming : List Arrival) (task : TaskRequest) : List Arrival :=
  coming ++ peer.react [(Message.taskRequest task).frame]

/-- A task is written to a leader that ends its stream at some time. -/
structure Sends (peer : Peer) (coming : List Arrival) (now : Nanos) (task : TaskRequest) :
    Prop where
  written : ((opening peer coming now).send (.taskRequest task)).1 = .ok ()
  ending : ends (arrivals peer coming task) = true

/-- What the first receive says of a stream that came in whole and has ended. -/
def firstHeard (bs : Bytes) : Option Frame.Outcome :=
  ((Connection.fresh defaultLimit).arrive bs).close.recv.1

/-- A stream begins with a frame that carries a message. -/
def Carries (bs : Bytes) (m : Message) : Prop :=
  ∃ body rest, bs = Frame.wrap body ++ rest ∧ body.length ≤ defaultLimit ∧
    Message.ofBody body = .ok m

/-- Two streams begin with the same frame, be it too long. -/
def SameFirst (bs bs' : Bytes) : Prop :=
  ∃ body rest rest', body.length ≤ Frame.longest ∧ bs = Frame.wrap body ++ rest ∧
    bs' = Frame.wrap body ++ rest'

/-- What a client reports of all that the leader writes. -/
structure Reports (bs : Bytes) (answer : Except ClusterError TaskOutcome) : Prop where
  completed : ∀ r, answer = .ok (.completed r) ↔ Carries bs (.clientResponse r)
  rejected : ∀ e, answer = .ok (.rejected e) ↔ Carries bs (.errorResponse e)
  unexpected : ∀ m, Carries bs m → m.kind ≠ .clientResponse → m.kind ≠ .errorResponse →
    answer = .error (.protocol (.unexpected "ClientResponse" m.kind.name))
  ended : answer = .error .connectionClosed ↔ firstHeard bs = some (.ok none)
  /-- An end before any frame: nothing was written, or the length of a frame and no more. -/
  empty : answer = .error .connectionClosed ↔
    bs = [] ∨ ∃ n, 0 < n ∧ n ≤ defaultLimit ∧ bs = bigEndian Frame.headerSize n
  failed : (∀ m, ¬Carries bs m) → firstHeard bs ≠ some (.ok none) →
    ∃ e, firstHeard bs = some (.error e) ∧ answer = .error (.protocol e)

variable {bs bs' body rest : Bytes} {m : Message} {peer : Peer} {coming : List Arrival}
  {now : Nanos} {task : TaskRequest}

/-! ### What comes first -/

theorem defaultLimit_le : defaultLimit ≤ Frame.longest := by decide

theorem firstHeard_eq (bs : Bytes) : firstHeard bs = (told defaultLimit true bs).head? := by
  have hopen : (Connection.fresh defaultLimit).Open := ⟨Connection.sound_fresh _, nofun⟩
  exact (hopen.arrive bs).close.recv_told

theorem firstHeard_of_whole (h : front defaultLimit bs = .whole body rest) :
    firstHeard bs = some (outcome body) := by
  rw [firstHeard_eq, Frame.told_of_whole h, List.head?_cons]

/-- Without a whole frame at the front, the first thing said is what the end makes of the stream. -/
theorem firstHeard_of_rest (h : front defaultLimit bs = .tooLong ∨ front defaultLimit bs = .short) :
    firstHeard bs = some (ending defaultLimit bs) := by
  rw [firstHeard_eq]
  rcases h with h | h
  · rw [Frame.told_of_tooLong h, Frame.ending_of_tooLong h, List.head?_cons]
  · rw [Frame.told_of_short h, if_pos rfl, List.head?_cons]

theorem whole_or_rest (bs : Bytes) : (∃ body rest, front defaultLimit bs = .whole body rest) ∨
    front defaultLimit bs = .tooLong ∨ front defaultLimit bs = .short := by
  cases front defaultLimit bs with
  | whole body rest => exact .inl ⟨body, rest, rfl⟩
  | tooLong => exact .inr (.inl rfl)
  | short => exact .inr (.inr rfl)

theorem firstHeard_message_iff : firstHeard bs = some (.ok (some m)) ↔ Carries bs m := by
  constructor
  · intro h
    rcases whole_or_rest bs with ⟨body, rest, hf⟩ | hf
    · rw [firstHeard_of_whole hf] at h
      obtain ⟨hbs, hfits⟩ := Frame.eq_wrap_of_front hf
      exact ⟨body, rest, hbs, hfits, Message.ofBody_of_map (Option.some.inj h)⟩
    · rw [firstHeard_of_rest hf] at h
      rcases Frame.ending_eq_none_or_error defaultLimit bs with hend | ⟨e, hend⟩ <;>
        rw [hend] at h <;> cases h
  · rintro ⟨body, rest, rfl, hfits, hbody⟩
    rw [firstHeard_of_whole (Frame.front_wrap hfits defaultLimit_le rest), outcome, hbody]
    rfl

/-- The end comes before any frame exactly if the stream is empty, or one length whose body is
missing. -/
theorem firstHeard_none_iff : firstHeard bs = some (.ok none) ↔
    bs = [] ∨ ∃ n, 0 < n ∧ n ≤ defaultLimit ∧ bs = bigEndian Frame.headerSize n := by
  have hheader {n : Nat} (hn : n ≤ defaultLimit) :
      front defaultLimit (bigEndian Frame.headerSize n) = if 0 < n then .short else .whole [] [] := by
    have h := Frame.front_header hn defaultLimit_le []
    rwa [List.append_nil, List.take_nil, List.drop_nil] at h
  rcases whole_or_rest bs with ⟨body, rest, hf⟩ | hf
  · rw [firstHeard_of_whole hf]
    refine iff_of_false (fun h => Frame.outcome_ne_none body (Option.some.inj h)) ?_
    rintro (rfl | ⟨n, hpos, hn, rfl⟩)
    · cases hf
    · rw [hheader hn, if_pos hpos] at hf
      cases hf
  · rw [firstHeard_of_rest hf, Option.some_inj, Frame.ending_eq_none_iff defaultLimit_le hf]
    refine or_congr_right ⟨?_, fun ⟨n, _, hn, hbs⟩ => ⟨n, hn, hbs⟩⟩
    rintro ⟨n, hn, rfl⟩
    refine ⟨n, Nat.pos_of_ne_zero ?_, hn, rfl⟩
    rintro rfl
    rw [hheader hn] at hf
    rcases hf with hf | hf <;> cases hf

/-- A frame that is too long is told by its length. -/
theorem front_of_lt (hlong : defaultLimit < body.length) (hlongest : body.length ≤ Frame.longest)
    (rest : Bytes) : front defaultLimit (Frame.wrap body ++ rest) = .tooLong := by
  have hlen : (bigEndian Frame.headerSize body.length).length = Frame.headerSize :=
    length_bigEndian ..
  have hread : ofBigEndian (bigEndian Frame.headerSize body.length) = body.length :=
    ofBigEndian_bigEndian (Frame.longest_lt hlongest)
  rw [Frame.wrap, List.append_assoc, front, List.take_left' hlen, hread, if_pos hlong,
    if_neg (by rw [List.length_append, hlen]; omega)]

/-- What stands behind the first frame does not matter to what is heard first. -/
theorem SameFirst.firstHeard_eq (h : SameFirst bs bs') : firstHeard bs = firstHeard bs' := by
  obtain ⟨body, rest, rest', hlongest, rfl, rfl⟩ := h
  rcases Nat.lt_or_ge defaultLimit body.length with hlong | hfits
  · rw [firstHeard_eq, firstHeard_eq, Frame.told_of_tooLong (front_of_lt hlong hlongest rest),
      Frame.told_of_tooLong (front_of_lt hlong hlongest rest')]
  · rw [firstHeard_of_whole (Frame.front_wrap hfits defaultLimit_le rest),
      firstHeard_of_whole (Frame.front_wrap hfits defaultLimit_le rest')]

/-! ### What it means -/

theorem judge_completed_iff {o : Frame.Outcome} {r : ClientResponse} :
    judge o = .ok (.completed r) ↔ o = .ok (some (.clientResponse r)) := by
  rcases o with e | _ | m
  · simp [judge]
  · simp [judge]
  · cases m <;> simp [judge]

theorem judge_rejected_iff {o : Frame.Outcome} {e : ErrorResponse} :
    judge o = .ok (.rejected e) ↔ o = .ok (some (.errorResponse e)) := by
  rcases o with e | _ | m
  · simp [judge]
  · simp [judge]
  · cases m <;> simp [judge]

theorem judge_connectionClosed_iff {o : Frame.Outcome} :
    judge o = .error .connectionClosed ↔ o = .ok none := by
  rcases o with e | _ | m
  · simp [judge]
  · simp [judge]
  · cases m <;> simp [judge]

/-- What is heard first decides on the report. -/
theorem reports_judge {o : Frame.Outcome} (h : firstHeard bs = some o) : Reports bs (judge o) where
  completed r := by rw [judge_completed_iff, ← firstHeard_message_iff, h, Option.some_inj]
  rejected e := by rw [judge_rejected_iff, ← firstHeard_message_iff, h, Option.some_inj]
  unexpected m hm hresponse herror := by
    obtain rfl := Option.some.inj (h.symm.trans (firstHeard_message_iff.mpr hm))
    cases m with
    | clientResponse r => exact absurd rfl hresponse
    | errorResponse e => exact absurd rfl herror
    | _ => rfl
  ended := by rw [judge_connectionClosed_iff, h, Option.some_inj]
  empty := by rw [judge_connectionClosed_iff, ← firstHeard_none_iff, h, Option.some_inj]
  failed hno hend := by
    rcases o with e | _ | m
    · exact ⟨e, h, rfl⟩
    · exact absurd h hend
    · exact absurd (firstHeard_message_iff.mp h) (hno m)

/-! ### Sending and waiting -/

theorem fits_of_written {l : Link} (h : (l.send m).1 = .ok ()) : m.toBody.length ≤ l.limit := by
  rw [← Nat.not_lt]
  intro hlong
  rw [Link.send_of_lt hlong] at h
  cases h

theorem send_of_written {l : Link} (h : (l.send m).1 = .ok ()) :
    l.send m = (.ok (), l.settle.hand m.frame) := by
  have hfits := fits_of_written h
  rw [Link.send_of_le hfits] at h ⊢
  by_cases hgone : l.settle.gone = true
  · rw [if_pos hgone] at h
    cases h
  · rw [if_neg hgone]

theorem submit_of_answer {l l' l'' : Link} {o : Frame.Outcome}
    (hsend : l.send (.taskRequest task) = (.ok (), l')) (hrecv : l'.recv none = (.answer o, l'')) :
    submit l task = (some (judge o), l'') := by
  rw [submit, hsend]
  simp only [hrecv]

/-- The connection of a client that has sent its task. -/
def sent (peer : Peer) (coming : List Arrival) (now : Nanos) (task : TaskRequest) : Link :=
  (opening peer coming now).settle.hand (Message.taskRequest task).frame

theorem stream_sent :
    (sent peer coming now task).stream = spoken (arrivals peer coming task) := by
  have hsettle := Link.settle_settles (opening peer coming now)
  rw [sent, Link.stream_hand, hsettle.stream, hsettle.closing, hsettle.peer, hsettle.taken, arrivals,
    Network.spoken_append]
  rfl

theorem closing_sent : (sent peer coming now task).closing = ends (arrivals peer coming task) := by
  have hsettle := Link.settle_settles (opening peer coming now)
  rw [sent, Link.closing_hand, hsettle.closing, hsettle.peer, hsettle.taken]
  exact List.any_append.symm

theorem limit_sent : (sent peer coming now task).limit = defaultLimit :=
  (Link.settle_settles (opening peer coming now)).limit

theorem taken_sent :
    (sent peer coming now task).taken = [(Message.taskRequest task).frame] := by
  rw [sent, Link.hand, (Link.settle_settles (opening peer coming now)).taken]
  rfl

theorem open_sent (peer : Peer) (coming : List Arrival) (now : Nanos) (task : TaskRequest) :
    (sent peer coming now task).connection.Open :=
  Link.open_settleFrom coming ⟨Connection.sound_fresh _, nofun⟩

/-- After a stream that ends there is something to say. -/
theorem exists_firstHeard (bs : Bytes) : ∃ o, firstHeard bs = some o := by
  rcases whole_or_rest bs with ⟨body, rest, hf⟩ | hf
  · exact ⟨_, firstHeard_of_whole hf⟩
  · exact ⟨_, firstHeard_of_rest hf⟩

/-- A client whose task was written reports what is heard first. -/
theorem Sends.submit (h : Sends peer coming now task) : ∃ o client',
    firstHeard (spoken (arrivals peer coming task)) = some o ∧
    Client.submit (opening peer coming now) task = (some (judge o), client') ∧
    client'.taken = [(Message.taskRequest task).frame] := by
  obtain ⟨o, ho⟩ := exists_firstHeard (spoken (arrivals peer coming task))
  have hopen := open_sent peer coming now task
  have hheard : ((sent peer coming now task).recv none).1 = .answer o := by
    rw [Link.recv_told hopen, limit_sent, closing_sent, h.ending, stream_sent, ← firstHeard_eq, ho]
    rfl
  have htaken := (Link.recv_hears hopen.toSound none).keeps.taken.trans taken_sent
  have hrecv : (sent peer coming now task).recv none = (.answer o, _) := Prod.ext hheard rfl
  exact ⟨o, _, ho, submit_of_answer (send_of_written h.written) hrecv, htaken⟩

/-- A client whose task is written to a leader that ends its stream sends that one frame and reports
what comes first of all that the leader writes, in whatever pieces and whatever comes behind the
first frame. Of a task that is too long nothing is written. -/
theorem submit_reports (peer : Peer) (coming : List Arrival) (now : Nanos) (task : TaskRequest) :
    (Sends peer coming now task → ∃ answer client',
      submit (opening peer coming now) task = (some answer, client') ∧
      client'.taken = [(Message.taskRequest task).frame] ∧
      Carries client'.taken.flatten (.taskRequest task) ∧
      Reports (spoken (arrivals peer coming task)) answer ∧
      ∀ peer' coming' now' task', Sends peer' coming' now' task' →
        SameFirst (spoken (arrivals peer coming task)) (spoken (arrivals peer' coming' task')) →
        (submit (opening peer' coming' now') task').1 = some answer) ∧
    (defaultLimit < (Message.taskRequest task).toBody.length →
      submit (opening peer coming now) task =
        (some (.error (.protocol (.io "frame size too big"))), opening peer coming now) ∧
      (opening peer coming now).taken = []) := by
  refine ⟨fun h => ?_, fun hlong => ⟨?_, rfl⟩⟩
  · obtain ⟨o, client', ho, hsubmit, htaken⟩ := h.submit
    refine ⟨judge o, client', hsubmit, htaken, ?_, reports_judge ho, ?_⟩
    · rw [htaken, List.flatten_singleton]
      refine ⟨_, [], (List.append_nil _).symm, fits_of_written h.written, ?_⟩
      exact Message.ofBody_toBody_of_le (Nat.le_trans (fits_of_written h.written) defaultLimit_le)
    · intro peer' coming' now' task' h' hsame
      obtain ⟨o', client'', ho', hsubmit', -⟩ := h'.submit
      rw [← hsame.firstHeard_eq, ho] at ho'
      obtain rfl := Option.some.inj ho'
      rw [hsubmit']
  · have hsend : (opening peer coming now).send (.taskRequest task) = (.error .frameTooBig, _) :=
      Link.send_of_lt hlong
    rw [submit, hsend]
    rfl

/-- A leader that answers a task with a response, in two pieces, and with some more bytes behind it;
then it is gone. -/
def responding (extra : Bytes) : Peer where
  react _ :=
    let frame := (Message.clientResponse ⟨6, 0, 1⟩).frame
    [⟨3, .bytes (frame.take 5)⟩, ⟨7, .bytes (frame.drop 5 ++ extra)⟩, ⟨9, .hangUp⟩]

theorem length_values_lt_request (task : TaskRequest) :
    task.values.length < (Message.taskRequest task).toBody.length := by
  have hvalues := Body.length_lt_encodeInts task.values
  rw [Message.length_toBody, Body.encodeFields, List.length_append]
  omega

/-- The response is reported whatever comes behind it, and a task of too many values is not sent. -/
theorem submit_reports_responding :
    (submit (opening (responding [1, 99]) [] 0) ⟨[1, 2, 3], 0⟩).1 =
      some (.ok (.completed ⟨6, 0, 1⟩)) ∧
    (submit (opening (responding []) [] 4) ⟨[], 0⟩).1 = some (.ok (.completed ⟨6, 0, 1⟩)) ∧
    (submit (opening (responding []) [] 0) ⟨List.replicate 8388608 0, 0⟩).1 =
      some (.error (.protocol (.io "frame size too big"))) := by
  obtain ⟨hsends, -⟩ := submit_reports (responding [1, 99]) [] 0 ⟨[1, 2, 3], 0⟩
  obtain ⟨answer, client', hsubmit, -, -, hreports, hsame⟩ := hsends ⟨rfl, rfl⟩
  have hanswer : answer = .ok (.completed ⟨6, 0, 1⟩) :=
    (hreports.completed _).mpr ⟨(Message.clientResponse ⟨6, 0, 1⟩).toBody, [1, 99], by decide,
      by decide, Message.ofBody_toBody_of_le (by decide)⟩
  have hother := hsame (responding []) [] 4 ⟨[], 0⟩ ⟨rfl, rfl⟩
    ⟨(Message.clientResponse ⟨6, 0, 1⟩).toBody, [1, 99], [], by decide, by decide, by decide⟩
  obtain ⟨-, hlong⟩ := submit_reports (responding []) [] 0 ⟨List.replicate 8388608 0, 0⟩
  have hbody := length_values_lt_request ⟨List.replicate 8388608 0, 0⟩
  rw [List.length_replicate] at hbody
  refine ⟨?_, ?_, ?_⟩
  · rw [hsubmit, hanswer]
  · rw [hother, hanswer]
  · rw [(hlong hbody).1]

end SumCluster.Client
