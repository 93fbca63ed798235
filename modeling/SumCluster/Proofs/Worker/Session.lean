import SumCluster.Proofs.Wire.Course
import SumCluster.Proofs.Worker

/-!
A worker's whole session. Whatever the leader sends and however it comes in, the worker answers the
subtasks at the front of the stream, each once and in order, and stops at the first thing that is
none: the end of the stream, a message of another kind, or a failure. Main statement: the frames
that the leader gets, and how the work ends, for every stream that ends.
-/

namespace SumCluster.Worker

open Wire
open Wire.Frame (told ending outcome outcomes Cuts)
open Wire.Connection (Going)

/-- What a receive gives for a subtask. -/
abbrev asked (q : SubtaskRequest) : Frame.Outcome := .ok (some (.subtaskRequest q))

/-- The frame that answers a subtask. -/
def reply (workerId : String) (mode : ComputeMode) (q : SubtaskRequest) : Bytes :=
  (Message.subtaskResult (resultOf workerId mode q)).frame

/-- How the work ends when this comes in place of a subtask. -/
def verdict : Frame.Outcome → Except ProtocolError Unit
  | .ok none => .ok ()
  | .ok (some m) => .error (.outOfPlace .subtaskRequest m.kind)
  | .error e => .error e

theorem verdict_eq_ok_iff {o : Frame.Outcome} : verdict o = .ok () ↔ o = .ok none := by
  match o with
  | .ok none => exact iff_of_true rfl rfl
  | .ok (some _) | .error _ => exact iff_of_false nofun nofun

/-- The results of a worker fit the frames, whatever they are. -/
def Fits (workerId : String) : Prop :=
  ∀ sum, (Message.subtaskResult ⟨sum, workerId⟩).toBody.length ≤ limit

variable {workerId : String} {mode : ComputeMode} {closed : Bool} {bytes : Bytes} {w : Worker}
  {qs : List SubtaskRequest} {o : Frame.Outcome}

/-- A worker that has answered some subtasks, and has read nothing else of what came. -/
structure Working (workerId : String) (mode : ComputeMode) (closed : Bool) (bytes : Bytes)
    (w : Worker) (qs : List SubtaskRequest) : Prop where
  sameId : w.workerId = workerId
  sameMode : w.mode = mode
  sent : w.sent.map (·.2) = qs.map (reply workerId mode)
  ended : w.ended = none
  going : ∃ handed, Going limit closed bytes w.connection handed ∧
    handed.map outcome = qs.map asked

/-- A worker that has answered some subtasks and stopped at what came after them. -/
structure Stopped (workerId : String) (mode : ComputeMode) (closed : Bool) (bytes : Bytes)
    (w : Worker) (qs : List SubtaskRequest) (o : Frame.Outcome) : Prop where
  sent : w.sent.map (·.2) = qs.map (reply workerId mode)
  ended : w.ended = some (verdict o)
  noSubtask : ∀ q, o ≠ asked q
  told : qs.map asked ++ [o] <+: told limit closed bytes

/-- All that a worker can have come to. -/
inductive Attends (workerId : String) (mode : ComputeMode) (closed : Bool) (bytes : Bytes)
    (w : Worker) : Prop where
  | working {qs : List SubtaskRequest} (h : Working workerId mode closed bytes w qs)
  | stopped {qs : List SubtaskRequest} {o : Frame.Outcome}
      (h : Stopped workerId mode closed bytes w qs o)

theorem working_fresh (workerId : String) (mode : ComputeMode) :
    Working workerId mode false [] (fresh workerId mode) [] :=
  ⟨rfl, rfl, rfl, rfl, [], Connection.going_fresh _, rfl⟩

/-! ### One message -/

theorem take_subtask (w : Worker) (q : SubtaskRequest) : w.take (.subtaskRequest q) = w.answer q :=
  rfl

theorem take_other {m : Message} (h : ∀ q, m ≠ .subtaskRequest q) :
    w.take m = w.stop (.error (.outOfPlace .subtaskRequest m.kind)) := by
  cases m with
  | subtaskRequest q => exact absurd rfl (h q)
  | handshake | taskRequest | subtaskResult | clientResponse | errorResponse => rfl

theorem connection_answer (w : Worker) (q : SubtaskRequest) :
    (w.answer q).connection = w.connection := by
  unfold answer
  split <;> rfl

theorem serve_of_ended (h : w.ended.isSome) (fuel : Nat) : w.serve fuel = w := by
  cases fuel with
  | zero => rfl
  | succ fuel => rw [serve, if_pos h]

/-- Whatever is no subtask ends the work. -/
theorem serve_of_other {c : Connection} (h : w.ended = none)
    (hrecv : w.connection.recv = (some o, c)) (ho : ∀ q, o ≠ asked q) (fuel : Nat) :
    w.serve (fuel + 1) = { w with connection := c }.stop (verdict o) := by
  rw [serve, if_neg (by rw [h]; decide), hrecv]
  rcases o with e | _ | m
  · rfl
  · rfl
  · have hm : ∀ q, m ≠ .subtaskRequest q := fun q hq => ho q (by rw [hq])
    show Worker.serve fuel ({ w with connection := c }.take m) = _
    rw [take_other hm, serve_of_ended rfl]
    rfl

/-- A frame of a message takes more than its length. -/
theorem length_stream_of_handed {c c' : Connection} {handed : List Bytes} {body : Bytes}
    {m : Message} (h : Going limit closed bytes c handed)
    (h' : Going limit closed bytes c' (handed ++ [body])) (hm : outcome body = .ok (some m)) :
    c'.stream.length + 5 ≤ c.stream.length := by
  have hbody : body ≠ [] := by
    rintro rfl
    exact absurd hm nofun
  have hlength := congrArg List.length (h'.stream.trans h.stream.symm)
  rw [List.flatMap_append, List.append_assoc, List.length_append, List.length_append,
    List.length_append, List.flatMap_singleton, Frame.length_wrap] at hlength
  have hpos := List.length_pos_iff.mpr hbody
  simp only [Frame.headerSize] at hlength
  omega

theorem Working.stop (h : Working workerId mode closed bytes w qs) {c : Connection}
    (hrecv : w.connection.recv = (some o, c)) (ho : ∀ q, o ≠ asked q) :
    Stopped workerId mode closed bytes ({ w with connection := c }.stop (verdict o)) qs o := by
  obtain ⟨handed, hgoing, hhanded⟩ := h.going
  refine ⟨h.sent, rfl, ho, ?_⟩
  have hfirst : o ∈ (told limit closed w.connection.stream).head? := by
    rw [← hgoing.recv_told, hrecv]
    rfl
  obtain ⟨later, hlater⟩ := List.head?_eq_some_iff.mp hfirst
  rw [hgoing.told_eq limit_le, hhanded, hlater]
  exact ⟨later, by rw [List.append_assoc]; rfl⟩

theorem Working.answer (hid : Fits workerId) (h : Working workerId mode closed bytes w qs)
    {c : Connection} {handed : List Bytes} {q : SubtaskRequest}
    (going : Going limit closed bytes c handed)
    (hhanded : handed.map outcome = (qs ++ [q]).map asked) :
    Working workerId mode closed bytes ({ w with connection := c }.answer q) (qs ++ [q]) := by
  obtain rfl := h.sameId
  obtain rfl := h.sameMode
  have hfits : (Message.subtaskResult ({ w with connection := c }.result q)).toBody.length ≤
      c.limit := by
    rw [going.atLimit]
    exact hid _
  rw [answer_of_le (w := { w with connection := c }) hfits]
  refine ⟨rfl, rfl, ?_, h.ended, handed, going, hhanded⟩
  rw [List.map_append, List.map_append, h.sent]
  rfl

/-- As far as it goes: a worker answers what has come, and it comes to an end if the stream has
ended and it goes on long enough. -/
theorem Working.serve (hid : Fits workerId) (fuel : Nat)
    (h : Working workerId mode closed bytes w qs) :
    Attends workerId mode closed bytes (w.serve fuel) ∧
      (closed = true → w.connection.stream.length < 5 * fuel → (w.serve fuel).ended.isSome) := by
  induction fuel generalizing w qs with
  | zero => exact ⟨.working h, fun _ hlt => absurd hlt (Nat.not_lt_zero _)⟩
  | succ fuel ih =>
    obtain ⟨handed, hgoing, hhanded⟩ := h.going
    have hgoes := hgoing.recv
    rcases hrecv : w.connection.recv with ⟨answer, c⟩
    have stops {o : Frame.Outcome} (hanswer : answer = some o) (ho : ∀ q, o ≠ asked q) :
        Attends workerId mode closed bytes (w.serve (fuel + 1)) ∧ (closed = true →
          w.connection.stream.length < 5 * (fuel + 1) → (w.serve (fuel + 1)).ended.isSome) := by
      rw [hanswer] at hrecv
      rw [serve_of_other h.ended hrecv ho]
      exact ⟨.stopped (h.stop hrecv ho), fun _ _ => rfl⟩
    rw [hrecv] at hgoes
    cases hgoes with
    | @message body m _ houtcome going =>
      by_cases hm : ∃ q, m = .subtaskRequest q
      · obtain ⟨q, rfl⟩ := hm
        have hnext := h.answer hid (q := q) going (by simp [hhanded, houtcome])
        obtain ⟨hattends, hends⟩ := ih hnext
        rw [serve_of_message h.ended hrecv, take_subtask]
        refine ⟨hattends, fun hclosed hlt => hends hclosed ?_⟩
        have hless := length_stream_of_handed hgoing going houtcome
        rw [connection_answer]
        show c.stream.length < 5 * fuel
        omega
      · exact stops rfl (fun q hq => hm ⟨q, Option.some.inj (Except.ok.inj hq)⟩)
    | waits hopen going =>
      rw [serve_of_waits h.ended hrecv]
      refine ⟨.working ⟨h.sameId, h.sameMode, h.sent, h.ended, handed, going, hhanded⟩, ?_⟩
      exact fun hclosed => absurd (hopen.symm.trans hclosed) nofun
    | ends => exact stops rfl (fun _ h => nomatch h)
    | fails => exact stops rfl (fun _ h => nomatch h)

/-! ### A whole run -/

theorem length_stream_le (c : Connection) :
    c.stream.length ≤ c.buffer.length + c.waiting.length + 4 := by
  unfold Connection.stream Frame.Decoder.stream
  cases c.decoder.awaited with
  | none => simp
  | some n =>
    rw [List.length_append, List.length_append, length_bigEndian]
    simp only [Frame.headerSize]
    omega

theorem Working.resume (hid : Fits workerId) (h : Working workerId mode closed bytes w qs) :
    Attends workerId mode closed bytes w.resume ∧ (closed = true → w.resume.ended.isSome) := by
  obtain ⟨hattends, hends⟩ :=
    h.serve hid (w.connection.buffer.length + w.connection.waiting.length + 1)
  refine ⟨hattends, fun hclosed => hends hclosed ?_⟩
  have hlength := length_stream_le w.connection
  omega

theorem Attends.feed (hid : Fits workerId) (h : Attends workerId mode false bytes w)
    (chunk : Bytes) : Attends workerId mode false (bytes ++ chunk) (w.feed chunk) := by
  cases h with
  | working h =>
    obtain ⟨handed, hgoing, hhanded⟩ := h.going
    have hfed : Working workerId mode false (bytes ++ chunk)
        { w with connection := w.connection.arrive chunk } _ :=
      ⟨h.sameId, h.sameMode, h.sent, h.ended, handed, hgoing.arrive chunk, hhanded⟩
    exact (hfed.resume hid).1
  | @stopped qs o h =>
    have hserve : w.feed chunk = { w with connection := w.connection.arrive chunk } :=
      serve_of_ended (by rw [h.ended]; rfl) _
    rw [hserve]
    exact .stopped ⟨h.sent, h.ended, h.noSubtask,
      h.told.trans (Frame.outcomes_isPrefix limit_le bytes chunk false)⟩

theorem attends_foldl_feed (hid : Fits workerId) (chunks : List Bytes)
    (h : Attends workerId mode false bytes w) :
    Attends workerId mode false (bytes ++ chunks.flatten) (chunks.foldl feed w) := by
  induction chunks generalizing bytes w with
  | nil => rwa [List.flatten_nil, List.append_nil]
  | cons chunk chunks ih =>
    rw [List.flatten_cons, ← List.append_assoc]
    exact ih (h.feed hid chunk)

/-- After the end of the stream the work has ended too. -/
theorem Attends.finish (hid : Fits workerId) (h : Attends workerId mode false bytes w) :
    ∃ qs o, Stopped workerId mode true bytes w.finish qs o := by
  cases h with
  | working h =>
    obtain ⟨handed, hgoing, hhanded⟩ := h.going
    have hclosed : Working workerId mode true bytes
        { w with connection := w.connection.close } _ :=
      ⟨h.sameId, h.sameMode, h.sent, h.ended, handed, hgoing.close, hhanded⟩
    obtain ⟨hattends, hends⟩ := hclosed.resume hid
    cases hattends with
    | working h' =>
      have hsome := hends rfl
      rw [h'.ended] at hsome
      exact absurd hsome nofun
    | stopped h' => exact ⟨_, _, h'⟩
  | @stopped qs o h =>
    have hserve : w.finish = { w with connection := w.connection.close } :=
      serve_of_ended (by rw [h.ended]; rfl) _
    have hprefix := Frame.outcomes_isPrefix limit_le bytes [] true
    rw [List.append_nil] at hprefix
    rw [hserve]
    exact ⟨qs, o, h.sent, h.ended, h.noSubtask, h.told.trans hprefix⟩

/-- An id that fits a result fits the handshake. -/
theorem Fits.connect (hid : Fits workerId) (mode : ComputeMode) :
    connect workerId mode = .ok ((handshake workerId).frame, fresh workerId mode) := by
  have hresult : 1 + (Body.encodeInt 0 ++ Body.encodeText workerId).length ≤ limit :=
    (Message.length_toBody (.subtaskResult ⟨0, workerId⟩)).symm.trans_le (hid 0)
  have hfits : (handshake workerId).toBody.length ≤ limit := by
    rw [List.length_append] at hresult
    rw [Message.length_toBody]
    show 1 + (Body.encodeText workerId).length ≤ limit
    omega
  rw [Worker.connect, Frame.encode, if_pos (show _ ≤ Frame.limitOf Frame.defaultLimit from hfits)]
  rfl

/-- A session comes to the handshake, one result for each of the subtasks that the stream begins
with, in order, and the verdict on what comes first that is no subtask. That is what a receive gives
on any connection on which the same stream has come, and ended, and these subtasks were handed out.
-/
theorem session_answers_subtasks (workerId : String) (mode : ComputeMode) (chunks : List Bytes)
    (hid : Fits workerId) :
    ∃ bodies rest, ∃ (qs : List SubtaskRequest) (o : Frame.Outcome) (later : List Frame.Outcome),
      Cuts limit chunks.flatten bodies rest ∧
      bodies.map outcome ++ [ending limit rest] = qs.map asked ++ o :: later ∧
      (∀ q, o ≠ asked q) ∧
      session workerId mode chunks =
        .ok ((handshake workerId).frame :: qs.map (reply workerId mode), verdict o) ∧
      (verdict o = .ok () ↔ o = .ok none) ∧
      ∀ steps, Connection.sent steps = chunks.flatten → Connection.closes steps = true →
        (Connection.course Frame.defaultLimit steps).answers = qs.map asked →
        (Connection.course Frame.defaultLimit steps).connection.recv.1 = some o := by
  have hattends := attends_foldl_feed hid chunks (.working (working_fresh workerId mode))
  obtain ⟨qs, o, h⟩ := hattends.finish hid
  rw [List.nil_append] at h
  obtain ⟨later, hlater⟩ := h.told
  have htold : told limit true chunks.flatten = qs.map asked ++ o :: later := by
    rw [← hlater, List.append_assoc]
    rfl
  refine ⟨_, _, qs, o, later, Frame.cuts_cut limit_le chunks.flatten, htold, h.noSubtask, ?_,
    verdict_eq_ok_iff, ?_⟩
  · rw [session, hid.connect]
    show Except.ok ((handshake workerId).frame :: (run workerId mode chunks).sent.map (·.2),
      (run workerId mode chunks).ended.getD (.ok ())) = _
    rw [run, h.sent, h.ended]
    rfl
  · intro steps hsent hcloses hanswers
    have healthy : ∀ e, .error e ∉ (Connection.course Frame.defaultLimit steps).answers := by
      simp [hanswers]
    have hnext := (Connection.stands_course Frame.defaultLimit healthy).recv_eq limit_le
    rw [hsent, hcloses, hanswers] at hnext
    change _ = (told limit true chunks.flatten)[_]?.or _ at hnext
    rw [hnext, htold, List.length_map, List.getElem?_append_right (by simp)]
    simp

/-- A subtask in two pieces, then a task in place of a subtask, and another subtask. -/
def interrupted : List Bytes :=
  [[0, 0, 0, 5, 2, 2], [2, 4, 0, 0, 0, 0, 3, 1, 0, 0, 0, 0, 0, 3, 2, 0, 0]]

theorem session_answers_subtasks_interrupted :
    Fits "w" ∧ session "w" .faulty interrupted =
      .ok ([[0, 0, 0, 3, 0, 1, 119], [0, 0, 0, 4, 3, 4, 1, 119]],
        .error (.outOfPlace .subtaskRequest .taskRequest)) := by
  have hid : Fits "w" := by
    intro sum
    have hroom : 15 + (Body.utf8 "w").length ≤ limit := by decide
    exact Nat.le_trans (Message.length_subtaskResult_le _) hroom
  refine ⟨hid, ?_⟩
  obtain ⟨bodies, rest, qs, o, later, hcuts, htold, ho, hsession, -⟩ :=
    session_answers_subtasks "w" .faulty interrupted hid
  have hcuts' : Cuts limit interrupted.flatten [[2, 2, 2, 4, 0], [1, 0, 0], [2, 0, 0]] [] :=
    .cons rfl (.cons rfl (.cons rfl (.nil limit_le (fun _ _ => nofun))))
  obtain ⟨rfl, rfl⟩ := Prod.mk.inj ((Frame.cut_of_cuts limit_le hcuts).symm.trans
    (Frame.cut_of_cuts limit_le hcuts'))
  have hall : [[2, 2, 2, 4, 0], [1, 0, 0], [2, 0, 0]].map outcome ++ [ending limit []] =
      [asked ⟨[1, 2], 0⟩, .ok (some (.taskRequest ⟨[], 0⟩)), asked ⟨[], 0⟩, .ok none] := by
    decide
  rw [hall] at htold
  -- The task is the first that is no subtask.
  obtain ⟨rfl, rfl⟩ : qs = [⟨[1, 2], 0⟩] ∧ o = .ok (some (.taskRequest ⟨[], 0⟩)) := by
    cases qs with
    | nil => exact absurd (List.cons.inj htold).1.symm (ho _)
    | cons q qs =>
      obtain ⟨hfirst, hnext⟩ := List.cons.inj htold
      cases hfirst
      cases qs with
      | nil => exact ⟨rfl, (List.cons.inj hnext).1.symm⟩
      | cons q' qs => exact absurd (List.cons.inj hnext).1 nofun
  rw [hsession]
  rfl

end SumCluster.Worker
