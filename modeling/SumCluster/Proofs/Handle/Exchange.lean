import SumCluster.Handle
import SumCluster.Proofs.Network.Listening

/-!
What one call on a handle can come to. A call that gets its subtask out waits on what the worker
sets off; it ends with the result at the front of the stream, or it fails and ends the trust, or it
waits forever and keeps the connection. A handle that is not trusted, or whose connection is kept,
never comes back into use.
-/

namespace SumCluster

open Network (Link Heard)
open Network.Link (Hears)
open Wire (Message SubtaskRequest SubtaskResult)

namespace Handle

/-- A call can go out on the handle. -/
def Usable (h : Handle) : Prop := h.alive = true ∧ h.held = false

/-- The connection once a subtask has gone out. -/
def sent (h : Handle) (request : SubtaskRequest) : Link :=
  h.link.settle.hand (Message.subtaskRequest request).frame

variable {h : Handle} {request : SubtaskRequest} {limit : Option Nanos}

/-! ### Results and failures -/

theorem judge_ok {outcome : Except Wire.ProtocolError (Option Message)} {r : SubtaskResult}
    (h : judge outcome = .ok r) : outcome = .ok (some (.subtaskResult r)) := by
  unfold judge at h
  split at h
  · cases h
  · cases h
  · rename_i m
    cases m <;> simp_all [Message.asSubtaskResult]

/-- How a call ends when something was heard. -/
def hearing (h : Handle) (limit : Option Nanos) : Heard × Link → Option Reply × Handle
  | (.answer outcome, link) =>
    (some (h.conclude link (judge outcome)).1, (h.conclude link (judge outcome)).2)
  | (.expired, link) =>
    (some (.error (.noReply (limit.getD 0))), { h with link := link }.kill)
  | (.silence, link) => (none, { h with link := link, held := true })

theorem link_hearing (h : Handle) (limit : Option Nanos) (heard : Heard × Link) :
    (h.hearing limit heard).2.link = heard.2 := by
  rcases heard with ⟨outcome | _ | _, link⟩
  · rw [hearing]
    cases judge outcome <;> rfl
  · rfl
  · rfl

/-- A call whose subtask goes out waits for what the worker sets off. -/
theorem exchange_of_sent (hfits : (Message.subtaskRequest request).toBody.length ≤ h.link.limit)
    (hthere : h.link.settle.gone = false) :
    h.exchange request limit =
      h.hearing limit ((h.sent request).recv (limit.map ((h.sent request).now + ·))) := by
  rw [exchange, Link.send_of_le hfits, hthere, if_neg (by decide)]
  rfl

/-- A call whose subtask does not go out fails. -/
theorem exchange_of_gone (hfits : (Message.subtaskRequest request).toBody.length ≤ h.link.limit)
    (hgone : h.link.settle.gone = true) :
    h.exchange request limit =
      (some (.error (.broken .brokenPipe)), { h with link := h.link.settle }.kill) := by
  rw [exchange, Link.send_of_le hfits, hgone, if_pos rfl]
  rfl

theorem exchange_of_lt (hlong : h.link.limit < (Message.subtaskRequest request).toBody.length) :
    h.exchange request limit = (some (.error (.broken .frameTooBig)), h.kill) := by
  rw [exchange, Link.send_of_lt hlong]
  rfl

/-! ### One exchange -/

/-- All that an exchange can come to. -/
inductive Exchanges (h : Handle) (request : SubtaskRequest) (limit : Option Nanos) :
    Option Reply × Handle → Prop where
  /-- The subtask went out, and its result came. -/
  | answered {r : SubtaskResult} {link : Link}
      (fits : (Message.subtaskRequest request).toBody.length ≤ h.link.limit)
      (there : h.link.settle.gone = false)
      (hears : Hears (limit.map ((h.sent request).now + ·)) (h.sent request) (h.sent request).coming
        (.answer (.ok (some (.subtaskResult r))), link)) :
      Exchanges h request limit (some (.ok r), { h with link := link })
  /-- The call failed. -/
  | failed {u : Unreachable} {h' : Handle} (dead : h'.alive = false)
      (workerId : h'.workerId = h.workerId) (peer : h'.link.peer = h.link.peer) :
      Exchanges h request limit (some (.error u), h')
  /-- The subtask went out, and nothing will ever come back. -/
  | waits {h' : Handle} (held : h'.held = true) (workerId : h'.workerId = h.workerId)
      (peer : h'.link.peer = h.link.peer) (unbounded : limit = none)
      : Exchanges h request limit (none, h')

theorem exchange_exchanges (hl : h.link.connection.Sound) :
    Exchanges h request limit (h.exchange request limit) := by
  have hsettle := Link.settle_settles h.link
  by_cases hfits : (Message.subtaskRequest request).toBody.length ≤ h.link.limit
  · cases hgone : h.link.settle.gone with
    | true =>
      rw [exchange_of_gone hfits hgone]
      exact .failed rfl rfl hsettle.peer
    | false =>
      rw [exchange_of_sent hfits hgone]
      have hears := Link.recv_hears (l := h.sent request) (hsettle.sound hl)
        (limit.map ((h.sent request).now + ·))
      revert hears
      rcases (h.sent request).recv (limit.map ((h.sent request).now + ·)) with ⟨heard, link⟩
      intro hears
      have hpeer : link.peer = h.link.peer := hears.keeps.peer.trans hsettle.peer
      cases heard with
      | answer outcome =>
        cases hj : judge outcome with
        | ok r =>
          rw [hearing, hj]
          exact .answered hfits hgone (judge_ok hj ▸ hears)
        | error u =>
          rw [hearing, hj]
          exact .failed rfl rfl hpeer
      | expired => exact .failed rfl rfl hpeer
      | silence => exact .waits rfl rfl hpeer (Option.map_eq_none_iff.mp hears.unbounded)
  · rw [exchange_of_lt (Nat.not_le.mp hfits)]
    exact .failed rfl rfl rfl

/-! ### One call -/

theorem call_of_held (hheld : h.held = true) (start : Nanos) :
    h.call start request limit = (none, h) := if_pos hheld

theorem call_of_dead (hheld : h.held = false) (hdead : h.alive = false) (start : Nanos) :
    h.call start request limit =
      (some (.error .abandoned), { h with link := h.link.advance start }) := by
  rw [call, hheld, hdead, if_neg (by decide), if_neg (by decide)]

theorem call_of_usable (hu : h.Usable) (start : Nanos) :
    h.call start request limit =
      { h with link := h.link.advance start }.exchange request limit := by
  rw [call, hu.1, hu.2, if_neg (by decide), if_pos rfl]

theorem held_or_dead (hu : ¬h.Usable) : h.held = true ∨ h.held = false ∧ h.alive = false := by
  unfold Usable at hu
  cases hheld : h.held <;> cases halive : h.alive <;> simp_all

/-- A handle that is out of use answers no call, and stays out of use. -/
theorem call_of_not_usable (hu : ¬h.Usable) (start : Nanos) :
    (∀ r, (h.call start request limit).1 ≠ some (.ok r)) ∧
      ¬(h.call start request limit).2.Usable := by
  rcases held_or_dead hu with hheld | ⟨hheld, hdead⟩
  · rw [call_of_held hheld]
    exact ⟨fun _ => nofun, hu⟩
  · rw [call_of_dead hheld hdead]
    exact ⟨fun _ => nofun, hu⟩

end Handle

end SumCluster
