import Mathlib.Data.List.Induction
import SumCluster.Network.Script
import SumCluster.Proofs.Handle.Exchange

/-!
Whose answer a call returns. A worker may answer late, in pieces, in part or not at all, and
messages do not say which request they answer; still a call that succeeds returns what the worker
set off on that very request. The invariant is that nothing is left unread on a connection on which
calls can go out: a call that gives an answer up ends the trust before the next one gets the
connection.
-/

namespace SumCluster

open Network (Peer spoken)
open Wire (Bytes Message SubtaskRequest SubtaskResult)

/-- A far end that sets off, for each frame that it takes, at most one result: the whole of its
frame, a part of it, or nothing. -/
def Network.Peer.AnswersOnce (p : Peer) : Prop :=
  ∀ frames : List Bytes, ∃ r : SubtaskResult,
    (Message.subtaskResult r).toBody.length ≤ Wire.Frame.longest ∧
      spoken (p.react frames) <+: (Message.subtaskResult r).frame

namespace Handle

/-- Something that happens to a handle. -/
inductive Use where
  /-- A call gets the connection. -/
  | call (start : Nanos) (request : SubtaskRequest) (limit : Option Nanos)
  /-- The registry ends the trust. -/
  | kill
  /-- The worker disappears. -/
  | cut (t : Nanos)
  deriving DecidableEq, Repr

/-- What a use leaves of a handle. -/
def use (h : Handle) : Use → Handle
  | .call start request limit => (h.call start request limit).2
  | .kill => h.kill
  | .cut t => h.cut t

/-- A handle after some uses, one after the other. -/
def after (h : Handle) (us : List Use) : Handle := us.foldl use h

/-- The subtasks of the calls among some uses. -/
def requests (us : List Use) : List SubtaskRequest :=
  us.filterMap fun
    | .call _ request _ => some request
    | _ => none

/-- The frames of some subtasks. -/
def framesOf (requests : List SubtaskRequest) : List Bytes :=
  requests.map fun request => (Message.subtaskRequest request).frame

/-- Nothing is left unread on a connection on which calls can go out. -/
def Clear (h : Handle) : Prop := h.Usable → h.link.connection.Sound ∧ h.link.stream = []

theorem after_concat (h : Handle) (us : List Use) (u : Use) :
    h.after (us ++ [u]) = (h.after us).use u := by
  simp [after]

/-! ### One use -/

/-- What a call waits on: what was unread, and then what its subtask sets off. -/
theorem stream_sent (h : Handle) (request : SubtaskRequest) :
    (h.sent request).stream = h.link.stream ++ if h.link.closing then [] else
      spoken (h.link.peer.react (h.link.taken ++ [(Message.subtaskRequest request).frame])) := by
  have hsettle := Network.Link.settle_settles h.link
  have hclosing : h.link.settle.closing = h.link.closing := hsettle.closing
  rw [sent, Network.Link.stream_hand, hsettle.stream, hclosing, hsettle.peer, hsettle.taken]
  rfl

/-- With nothing unread, that is all or nothing of what the subtask sets off. -/
theorem stream_sent_of_clear {h : Handle} (hclear : h.link.stream = [])
    (request : SubtaskRequest) :
    (h.sent request).stream = [] ∨ (h.sent request).stream =
      spoken (h.link.peer.react (h.link.taken ++ [(Message.subtaskRequest request).frame])) := by
  rw [stream_sent, hclear, List.nil_append]
  split
  · exact .inl rfl
  · exact .inr rfl

/-- An answered call: the result is all that the worker set off, and nothing is left unread. -/
theorem credit_of_hears {h : Handle} {request : SubtaskRequest} {deadline : Option Nanos}
    {r : SubtaskResult} {link : Network.Link} (hp : h.link.peer.AnswersOnce)
    (hl : h.link.connection.Sound) (hclear : h.link.stream = [])
    (hears : Network.Link.Hears deadline (h.sent request) (h.sent request).coming
      (.answer (.ok (some (.subtaskResult r))), link)) :
    spoken (h.link.peer.react (h.link.taken ++ [(Message.subtaskRequest request).frame])) =
        (Message.subtaskResult r).frame ∧
      link.connection.Sound ∧ link.stream = [] ∧ link.peer = h.link.peer ∧
      link.taken = h.link.taken ++ [(Message.subtaskRequest request).frame] := by
  have hsettle := Network.Link.settle_settles h.link
  obtain ⟨r', hlong, hpart⟩ := hp (h.link.taken ++ [(Message.subtaskRequest request).frame])
  have hkeeps := hears.keeps
  obtain ⟨body, rest, hfront, hbody, hrest, hsound⟩ := hears.message
  change Wire.Frame.front (h.sent request).limit (h.sent request).stream = _ at hfront
  -- The stream is not empty, so it is what the worker set off, which is part of one frame.
  have hstream : (h.sent request).stream =
      spoken (h.link.peer.react (h.link.taken ++ [(Message.subtaskRequest request).frame])) := by
    rcases stream_sent_of_clear hclear request with hnil | heq
    · rw [hnil] at hfront
      cases hfront
    · exact heq
  have hlimit : (h.sent request).limit ≤ Wire.Frame.longest := (hsettle.sound hl).decoder.limit_le
  rw [hstream] at hfront
  obtain ⟨rfl, rfl, hwhole⟩ := Wire.Frame.whole_of_prefix hlong hpart hlimit hfront
  have hr : Message.subtaskResult r' = Message.subtaskResult r :=
    Except.ok.inj ((Message.ofBody_toBody_of_le hlong).symm.trans hbody)
  exact ⟨hr ▸ hwhole, hsound, hrest, hkeeps.peer.trans hsettle.peer, by
    rw [hkeeps.taken, ← hsettle.taken]; rfl⟩

/-- What uses keep: the worker is the same, and as long as calls can go out, it has taken exactly
their subtasks and nothing is left unread. -/
structure Credited (h₀ : Handle) (us : List Use) (h : Handle) : Prop where
  peer : h.link.peer = h₀.link.peer
  sound : h.Usable → h.link.connection.Sound
  clear : h.Usable → h.link.stream = []
  taken : h.Usable → h.link.taken = h₀.link.taken ++ framesOf (requests us)

theorem Credited.of_not_usable {h₀ h : Handle} {us : List Use} (hu : ¬h.Usable)
    (hpeer : h.link.peer = h₀.link.peer) : Credited h₀ us h :=
  ⟨hpeer, fun h => absurd h hu, fun h => absurd h hu, fun h => absurd h hu⟩

theorem requests_concat_call (us : List Use) (start : Nanos) (request : SubtaskRequest)
    (limit : Option Nanos) :
    framesOf (requests (us ++ [.call start request limit])) =
      framesOf (requests us) ++ [(Message.subtaskRequest request).frame] := by
  simp [framesOf, requests]

/-- A call on a usable handle with nothing left unread. -/
theorem Credited.call {h₀ h : Handle} {us : List Use} (hp : h₀.link.peer.AnswersOnce)
    (hc : Credited h₀ us h) (hu : h.Usable) (start : Nanos) (request : SubtaskRequest)
    (limit : Option Nanos) :
    Credited h₀ (us ++ [.call start request limit]) (h.call start request limit).2 ∧
      ∀ r, (h.call start request limit).1 = some (.ok r) →
        spoken (h₀.link.peer.react
          (h₀.link.taken ++ framesOf (requests (us ++ [.call start request limit])))) =
          (Message.subtaskResult r).frame := by
  have hx : Exchanges { h with link := h.link.advance start } request limit
      ({ h with link := h.link.advance start }.exchange request limit) :=
    exchange_exchanges (hc.sound hu)
  have hframes := requests_concat_call us start request limit
  rw [call_of_usable hu]
  generalize { h with link := h.link.advance start }.exchange request limit = result at hx
  cases hx with
  | @answered r link _ _ hears =>
    obtain ⟨hwhole, hsound, hclear, hpeer, htaken⟩ := credit_of_hears
      (h := { h with link := h.link.advance start }) (hc.peer.symm ▸ hp) (hc.sound hu)
      (hc.clear hu) hears
    have hall : link.taken =
        h₀.link.taken ++ framesOf (requests (us ++ [.call start request limit])) := by
      rw [htaken, hframes, ← List.append_assoc, ← hc.taken hu]
      rfl
    refine ⟨⟨hpeer.trans hc.peer, fun _ => hsound, fun _ => hclear, fun _ => hall⟩, ?_⟩
    intro r' hr
    cases hr
    rw [← hwhole, hframes, ← List.append_assoc, ← hc.taken hu, ← hc.peer]
    rfl
  | failed dead _ hpeer =>
    refine ⟨.of_not_usable (fun h => ?_) (hpeer.trans hc.peer), nofun⟩
    exact absurd (dead.symm.trans h.1) (by decide)
  | waits held _ hpeer _ =>
    refine ⟨.of_not_usable (fun h => ?_) (hpeer.trans hc.peer), nofun⟩
    exact absurd (held.symm.trans h.2) (by decide)

/-- Every use keeps the invariant. -/
theorem Credited.use {h₀ h : Handle} {us : List Use} (hp : h₀.link.peer.AnswersOnce)
    (hc : Credited h₀ us h) : ∀ u : Use, Credited h₀ (us ++ [u]) (h.use u)
  | .call start request limit => by
    by_cases hu : h.Usable
    · exact (hc.call hp hu start request limit).1
    · refine .of_not_usable (call_of_not_usable hu start).2 (.trans ?_ hc.peer)
      rcases held_or_dead hu with hheld | ⟨hheld, hdead⟩
      · rw [Handle.use, call_of_held hheld]
      · rw [Handle.use, call_of_dead hheld hdead]
        rfl
  | .kill => .of_not_usable (fun h => nomatch h.1) hc.peer
  | .cut t => by
    have hcut (hu : h.Usable) := Network.Link.cut_quiet (hc.sound hu) (hc.clear hu) t
    refine ⟨(Network.Link.peer_cut ..).trans hc.peer, fun hu => (hcut hu).1,
      fun hu => (hcut hu).2.1, fun hu => (hcut hu).2.2.trans ?_⟩
    rw [hc.taken hu, requests, requests, List.filterMap_append]
    simp

/-- Uses keep the invariant. -/
theorem credited_after {h : Handle} (hp : h.link.peer.AnswersOnce) (hclear : h.Clear)
    (us : List Use) : Credited h us (h.after us) := by
  induction us using List.reverseRecOn with
  | nil =>
    exact ⟨rfl, fun hu => (hclear hu).1, fun hu => (hclear hu).2, fun _ =>
      (List.append_nil _).symm⟩
  | append_singleton us u ih =>
    rw [after_concat]
    exact ih.use hp u

/-- Whatever has happened to a handle before, a call that succeeds returns the one result that the
worker set off when it took that call's own subtask, after exactly those of the calls before. -/
theorem call_returns_own_answer {h : Handle} (hp : h.link.peer.AnswersOnce) (hclear : h.Clear)
    (us : List Use) (start : Nanos) (request : SubtaskRequest) (limit : Option Nanos)
    (r : SubtaskResult) (hok : ((h.after us).call start request limit).1 = some (.ok r)) :
    spoken (h.link.peer.react (h.link.taken ++ framesOf (requests us) ++
      [(Message.subtaskRequest request).frame])) = (Message.subtaskResult r).frame := by
  have hc := credited_after hp hclear us
  by_cases hu : (h.after us).Usable
  · have hown := (hc.call hp hu start request limit).2 r hok
    rwa [requests_concat_call, ← List.append_assoc] at hown
  · exact absurd hok ((call_of_not_usable hu start).1 r)

end Handle

/-- A worker that numbers its results and takes seven nanoseconds for each. -/
def Network.Peer.counting (workerId : String) : Peer where
  react frames :=
    [⟨7, .bytes (Message.subtaskResult ⟨Int32.ofNat frames.length, workerId⟩).frame⟩]

theorem answersOnce_counting : (Peer.counting "w").AnswersOnce := by
  intro frames
  refine ⟨⟨Int32.ofNat frames.length, "w"⟩, ?_, ?_⟩
  · exact Nat.le_trans (Message.length_subtaskResult_le _) (by decide : 15 + 1 ≤ Wire.Frame.longest)
  · simp [Peer.counting, spoken]

namespace Handle

theorem second_call_returns_second_answer :
    (((fresh "w" (.fresh 100 (.counting "w") [] 0)).after [.call 0 ⟨[2, 3], 0⟩ (some 50)]).call
        5 ⟨[4], 0⟩ none).1 = some (.ok ⟨2, "w"⟩) ∧
      spoken ((Peer.counting "w").react (framesOf [⟨[2, 3], 0⟩, ⟨[4], 0⟩])) =
        (Message.subtaskResult ⟨2, "w"⟩).frame :=
  ⟨rfl, call_returns_own_answer (h := fresh "w" (.fresh 100 (.counting "w") [] 0))
    answersOnce_counting (fun _ => ⟨Wire.Connection.sound_fresh 100, rfl⟩)
    [.call 0 ⟨[2, 3], 0⟩ (some 50)] 5 ⟨[4], 0⟩ none ⟨2, "w"⟩ rfl⟩

end Handle

end SumCluster
