import SumCluster.Proofs.Dispatch.Accounting
import SumCluster.Proofs.Handle.Lifetime
import SumCluster.Turn

/-!
What comes late makes no difference. A connection may be known further ahead than another one: more
is on its way, behind all that is on its way there, and other frames were handed over before. As long
as the rest is due later, everything done on both comes to the same, and the one stays as far ahead
of the other as it was. So a call that has ended has ended for good; and with a deadline it does end.
-/

namespace SumCluster

open Network (Link Arrival Event Heard Peer)
open Wire (Bytes Message SubtaskRequest)

namespace Network.Link

/-- The connection when more is known of what comes, and other frames were handed over before. -/
def ahead (l : Link) (before : List Bytes) (later : List Arrival) : Link :=
  { l with taken := before ++ l.taken, coming := l.coming ++ later }

variable {l : Link} {before : List Bytes} {later : List Arrival}

/-! ### Sending -/

theorem deliver_ahead (l : Link) (before : List Bytes) (later : List Arrival) (e : Event) :
    (l.ahead before later).deliver e = (l.deliver e).ahead before later := by
  cases e <;> rfl

/-- What is due later is not delivered. -/
theorem settleFrom_of_lt {as : List Arrival} (hlater : ∀ a ∈ as, l.now < a.due) :
    l.settleFrom as = { l with coming := as } := by
  cases as with
  | nil => rfl
  | cons a as => rw [settleFrom, if_neg (Nat.not_le.mpr (hlater a List.mem_cons_self))]

theorem settleFrom_ahead (as : List Arrival) (hlater : ∀ a ∈ later, l.now < a.due) :
    (l.ahead before later).settleFrom (as ++ later) = (l.settleFrom as).ahead before later := by
  induction as generalizing l with
  | nil => exact settleFrom_of_lt (l := l.ahead before later) hlater
  | cons a as ih =>
    have hnow : (l.ahead before later).now = l.now := rfl
    rw [List.cons_append, settleFrom, settleFrom, hnow]
    split
    · rw [deliver_ahead]
      exact ih (by rwa [now_deliver])
    · rfl

theorem settle_ahead (hlater : ∀ a ∈ later, l.now < a.due) :
    (l.ahead before later).settle = l.settle.ahead before later :=
  settleFrom_ahead l.coming hlater

/-- A far end that does nothing of its own sets nothing off. -/
theorem hand_ahead (hsilent : l.peer = .silent) (before : List Bytes) (later : List Arrival)
    (frame : Bytes) :
    (l.ahead before later).hand frame = (l.hand frame).ahead before later := by
  simp only [hand, ahead, hsilent, Peer.silent, List.map_nil, List.append_nil, List.append_assoc]

/-! ### Waiting -/

/-- Waiting does not turn the clock back, and leaves the far end the same. -/
theorem hear_keeps (deadline : Option Nanos) (as : List Arrival) (l : Link) :
    l.now ≤ (hear deadline l as).2.now ∧ (hear deadline l as).2.peer = l.peer := by
  induction as generalizing l with
  | nil =>
    unfold hear
    split
    · exact ⟨Nat.le_refl _, rfl⟩
    · split
      · exact ⟨Nat.le_max_left _ _, rfl⟩
      · exact ⟨Nat.le_refl _, rfl⟩
  | cons a as ih =>
    have next (c : Wire.Connection) (r : Heard × Link)
        (hr : hear deadline (({ l with connection := c }.advance a.due).deliver a.event) as = r) :
        l.now ≤ r.2.now ∧ r.2.peer = l.peer := by
      obtain ⟨hnow, hpeer⟩ := ih (({ l with connection := c }.advance a.due).deliver a.event)
      rw [hr, now_deliver] at hnow
      rw [hr, peer_deliver] at hpeer
      exact ⟨Nat.le_trans (Nat.le_max_left _ _) hnow, hpeer⟩
    unfold hear
    split
    · exact ⟨Nat.le_refl _, rfl⟩
    · split
      · split
        · exact ⟨Nat.le_max_left _ _, rfl⟩
        · exact next _ _ rfl
      · exact next _ _ rfl

/-- The connection has an answer: waiting ends with it, whatever is on its way. -/
theorem hear_of_some {o : Wire.Frame.Outcome} {c : Wire.Connection}
    (hrecv : l.connection.recv = (some o, c)) (deadline : Option Nanos) (as : List Arrival) :
    hear deadline l as = (.answer o, { l with connection := c, coming := as }) := by
  cases as <;> rw [hear, hrecv]

/-- The connection has no answer, and the deadline passes before anything else comes. -/
theorem hear_of_none {c : Wire.Connection} (hrecv : l.connection.recv = (none, c)) {t : Nanos}
    {as : List Arrival} (hlate : ∀ a ∈ as, t < a.due) :
    hear (some t) l as = (.expired, { l with connection := c, coming := as }.advance t) := by
  cases as with
  | nil => rw [hear, hrecv]
  | cons a as =>
    rw [hear, hrecv]
    exact if_pos (hlate a List.mem_cons_self)

/-- Waiting that has come to an end comes to the same when something more is on its way that is due
later. -/
theorem hear_ahead {deadline : Option Nanos} (as : List Arrival) {heard : Heard} {l' : Link}
    (h : hear deadline l as = (heard, l')) (hend : heard ≠ .silence)
    (hlater : ∀ a ∈ later, l'.now < a.due) :
    hear deadline (l.ahead before later) (as ++ later) = (heard, l'.ahead before later) := by
  induction as generalizing l with
  | nil =>
    rcases hrecv : l.connection.recv with ⟨_ | o, c⟩
    · rw [hear, hrecv] at h
      cases deadline with
      | none => exact absurd (congrArg Prod.fst h).symm hend
      | some t =>
        obtain ⟨rfl, rfl⟩ := Prod.mk.inj h
        exact hear_of_none (l := l.ahead before later) hrecv fun a ha =>
          Nat.lt_of_le_of_lt (Nat.le_max_right _ _) (hlater a ha)
    · rw [hear_of_some hrecv] at h
      obtain ⟨rfl, rfl⟩ := Prod.mk.inj h
      exact hear_of_some (l := l.ahead before later) hrecv deadline later
  | cons a as ih =>
    rcases hrecv : l.connection.recv with ⟨_ | o, c⟩
    · let next : Link := { l with connection := c }.advance a.due
      have hnext (hrest : hear deadline (next.deliver a.event) as = (heard, l')) :
          hear deadline ((next.ahead before later).deliver a.event) (as ++ later) =
            (heard, l'.ahead before later) := by
        rw [deliver_ahead]
        exact ih hrest
      have hrecv' : (l.ahead before later).connection.recv = (none, c) := hrecv
      rw [hear, hrecv] at h
      rw [List.cons_append, hear, hrecv']
      cases deadline with
      | none => exact hnext h
      | some t =>
        simp only at h ⊢
        split at h
        · rename_i hlate
          obtain ⟨rfl, rfl⟩ := Prod.mk.inj h
          exact if_pos hlate
        · rename_i hdue
          exact (if_neg hdue).trans (hnext h)
    · rw [hear_of_some hrecv] at h
      obtain ⟨rfl, rfl⟩ := Prod.mk.inj h
      exact hear_of_some (l := l.ahead before later) hrecv deadline (a :: as ++ later)

theorem recv_ahead {deadline : Option Nanos} {heard : Heard} {l' : Link}
    (h : l.recv deadline = (heard, l')) (hend : heard ≠ .silence)
    (hlater : ∀ a ∈ later, l'.now < a.due) :
    (l.ahead before later).recv deadline = (heard, l'.ahead before later) :=
  hear_ahead l.coming h hend hlater

end Network.Link

namespace Handle

/-- The worker when more is known of what comes, and other frames were handed over before. -/
def ahead (h : Handle) (before : List Bytes) (later : List Arrival) : Handle :=
  { h with link := h.link.ahead before later }

variable {h h' : Handle} {request : SubtaskRequest} {limit : Option Nanos} {reply : Reply}

/-! ### Calls -/

theorem hearing_ahead (h : Handle) (limit : Option Nanos) (before : List Bytes)
    (later : List Arrival) (heard : Heard) (link : Link) :
    (h.ahead before later).hearing limit (heard, link.ahead before later) =
      ((h.hearing limit (heard, link)).1,
        (h.hearing limit (heard, link)).2.ahead before later) := by
  cases heard with
  | answer outcome =>
    rw [hearing, hearing]
    cases judge outcome <;> rfl
  | expired => rfl
  | silence => rfl

/-- An exchange does not turn the clock back, and leaves the far end the same. -/
theorem exchange_keeps (h : Handle) (request : SubtaskRequest) (limit : Option Nanos) :
    h.link.now ≤ (h.exchange request limit).2.link.now ∧
      (h.exchange request limit).2.link.peer = h.link.peer := by
  have hsettles := Link.settle_settles h.link
  by_cases hfits : (Message.subtaskRequest request).toBody.length ≤ h.link.limit
  · cases hgone : h.link.settle.gone with
    | true =>
      rw [exchange_of_gone hfits hgone]
      exact ⟨Nat.le_of_eq hsettles.now.symm, hsettles.peer⟩
    | false =>
      rw [exchange_of_sent hfits hgone, link_hearing]
      obtain ⟨hnow, hpeer⟩ := Link.hear_keeps (limit.map ((h.sent request).now + ·))
        (h.sent request).coming (h.sent request)
      exact ⟨Nat.le_trans (Nat.le_of_eq hsettles.now.symm) hnow, hpeer.trans hsettles.peer⟩
  · rw [exchange_of_lt (Nat.not_le.mp hfits)]
    exact ⟨Nat.le_refl _, rfl⟩

theorem exchange_ahead (hsilent : h.link.peer = .silent)
    (hend : h.exchange request limit = (some reply, h')) {later : List Arrival}
    (hlater : ∀ a ∈ later, h'.link.now < a.due) (before : List Bytes) :
    (h.ahead before later).exchange request limit = (some reply, h'.ahead before later) := by
  have hkeeps := h.exchange_keeps request limit
  rw [hend] at hkeeps
  have hfurther : ∀ a ∈ later, h.link.now < a.due := fun a ha =>
    Nat.lt_of_le_of_lt hkeeps.1 (hlater a ha)
  have hsettle : (h.ahead before later).link.settle = h.link.settle.ahead before later :=
    Link.settle_ahead hfurther
  by_cases hfits : (Message.subtaskRequest request).toBody.length ≤ h.link.limit
  · cases hgone : h.link.settle.gone with
    | true =>
      rw [exchange_of_gone hfits hgone] at hend
      obtain ⟨hreply, rfl⟩ := Prod.mk.inj hend
      rw [exchange_of_gone (h := h.ahead before later) hfits (hsettle ▸ hgone), hreply, hsettle]
      rfl
    | false =>
      have hsent : (h.ahead before later).sent request = (h.sent request).ahead before later := by
        rw [sent, hsettle, Link.hand_ahead ((Link.settle_settles h.link).peer.trans hsilent)]
        rfl
      rw [exchange_of_sent hfits hgone] at hend
      rw [exchange_of_sent (h := h.ahead before later) hfits (hsettle ▸ hgone), hsent]
      rcases hrecv : (h.sent request).recv (limit.map ((h.sent request).now + ·)) with ⟨heard, link⟩
      rw [hrecv] at hend
      have hheard : heard ≠ .silence := by
        rintro rfl
        cases hend
      obtain rfl : h'.link = link := by
        have hlink := link_hearing h limit (heard, link)
        rwa [hend] at hlink
      have hnow : ((h.sent request).ahead before later).now = (h.sent request).now := rfl
      rw [hnow, Link.recv_ahead hrecv hheard hlater, hearing_ahead, hend]
  · have hlong := Nat.not_le.mp hfits
    rw [exchange_of_lt hlong] at hend
    obtain ⟨hreply, rfl⟩ := Prod.mk.inj hend
    rw [exchange_of_lt (h := h.ahead before later) hlong, hreply]
    rfl

theorem held_conclude (h : Handle) (link : Link) (reply : Reply) :
    (h.conclude link reply).2.held = h.held := by
  cases reply <;> rfl

/-- A call that has ended does not keep the connection. -/
theorem held_exchange (hend : (h.exchange request limit).1 = some reply) :
    (h.exchange request limit).2.held = h.held := by
  unfold exchange at hend ⊢
  split
  · exact held_conclude ..
  · split
    · exact held_conclude ..
    · exact held_conclude ..
    · simp_all

/-- An exchange hands over the same frames whatever comes after it has begun. -/
theorem taken_exchange_ahead {later : List Arrival} (hlater : ∀ a ∈ later, h.link.now < a.due)
    (before : List Bytes) : ((h.ahead before later).exchange request limit).2.link.taken =
      before ++ (h.exchange request limit).2.link.taken := by
  have hsettle : (h.ahead before later).link.settle = h.link.settle.ahead before later :=
    Link.settle_ahead hlater
  by_cases hfits : (Message.subtaskRequest request).toBody.length ≤ h.link.limit
  · cases hgone : h.link.settle.gone with
    | true =>
      rw [exchange_of_gone hfits hgone,
        exchange_of_gone (h := h.ahead before later) hfits (hsettle ▸ hgone), hsettle]
      rfl
    | false =>
      rw [exchange_of_sent hfits hgone, link_hearing, taken_recv_sent,
        exchange_of_sent (h := h.ahead before later) hfits (hsettle ▸ hgone), link_hearing,
        taken_recv_sent]
      exact List.append_assoc ..
  · have hlong := Nat.not_le.mp hfits
    rw [exchange_of_lt hlong, exchange_of_lt (h := h.ahead before later) hlong]
    rfl

/-- A call does not turn the clock back, and leaves the far end the same. -/
theorem call_keeps (h : Handle) (start : Nanos) (request : SubtaskRequest)
    (limit : Option Nanos) : h.link.now ≤ (h.call start request limit).2.link.now ∧
      (h.call start request limit).2.link.peer = h.link.peer := by
  by_cases hu : h.Usable
  · rw [call_of_usable hu]
    obtain ⟨hnow, hpeer⟩ := exchange_keeps { h with link := h.link.advance start } request limit
    exact ⟨Nat.le_trans (Nat.le_max_left _ _) hnow, hpeer⟩
  · rcases held_or_dead hu with hheld | ⟨hheld, hdead⟩
    · rw [call_of_held hheld]
      exact ⟨Nat.le_refl _, rfl⟩
    · rw [call_of_dead hheld hdead]
      exact ⟨Nat.le_max_left _ _, rfl⟩

/-- A call that has ended comes to the same when something more comes that is due later. -/
theorem call_ahead (hsilent : h.link.peer = .silent) {start : Nanos}
    (hend : h.call start request limit = (some reply, h')) {later : List Arrival}
    (hlater : ∀ a ∈ later, h'.link.now < a.due) (before : List Bytes) :
    (h.ahead before later).call start request limit = (some reply, h'.ahead before later) := by
  by_cases hu : h.Usable
  · rw [call_of_usable hu] at hend
    rw [call_of_usable (h := h.ahead before later) hu]
    exact exchange_ahead (h := { h with link := h.link.advance start }) hsilent hend hlater before
  · rcases held_or_dead hu with hheld | ⟨hheld, hdead⟩
    · rw [call_of_held hheld] at hend
      cases hend
    · rw [call_of_dead hheld hdead] at hend
      obtain ⟨hreply, rfl⟩ := Prod.mk.inj hend
      rw [call_of_dead (h := h.ahead before later) hheld hdead, hreply]
      rfl

theorem held_call {start : Nanos} (hend : (h.call start request limit).1 = some reply) :
    (h.call start request limit).2.held = h.held := by
  by_cases hu : h.Usable
  · rw [call_of_usable hu] at hend ⊢
    exact held_exchange (h := { h with link := h.link.advance start }) hend
  · rcases held_or_dead hu with hheld | ⟨hheld, hdead⟩
    · rw [call_of_held hheld]
    · rw [call_of_dead hheld hdead]

theorem taken_call_ahead {start : Nanos} {later : List Arrival}
    (hlater : ∀ a ∈ later, max h.link.now start < a.due) (before : List Bytes) :
    ((h.ahead before later).call start request limit).2.link.taken =
      before ++ (h.call start request limit).2.link.taken := by
  by_cases hu : h.Usable
  · rw [call_of_usable hu, call_of_usable (h := h.ahead before later) hu]
    exact taken_exchange_ahead (h := { h with link := h.link.advance start }) hlater before
  · rcases held_or_dead hu with hheld | ⟨hheld, hdead⟩
    · rw [call_of_held hheld, call_of_held (h := h.ahead before later) hheld]
      rfl
    · rw [call_of_dead hheld hdead, call_of_dead (h := h.ahead before later) hheld hdead]
      rfl

end Handle

namespace Turn

/-- The turn of a call when more is known of what comes, and other frames were handed over before. -/
def ahead (t : Turn) (before : List Bytes) (later : List Arrival) : Turn :=
  { t with handle := t.handle.ahead before later }

/-! ### Turns -/

theorem arrive_ahead (t : Turn) (a : Arrival) (before : List Bytes) (as : List Arrival) :
    (t.arrive a).ahead before as = t.ahead before (a :: as) := by
  simp [arrive, ahead, Handle.ahead, Link.ahead, Link.expect]

/-- The result of a call that has ended by some moment, and what the call came to. -/
theorem ended?_eq_some {t : Turn} {now : Nanos} {result : Result}
    (hend : t.ended? now = some result) :
    t.call = (some result.reply, t.call.2) ∧ result.finish = t.call.2.link.now ∧
      result.finish ≤ now := by
  obtain ⟨hresult, hle⟩ := Option.filter_eq_some_iff.mp hend
  obtain ⟨reply, hreply, rfl⟩ := Option.map_eq_some_iff.mp hresult
  exact ⟨Prod.ext hreply rfl, rfl, of_decide_eq_true hle⟩

section

variable {t : Turn} {now : Nanos} {result : Result} {as : List Arrival}
  (hend : t.ended? now = some result) (hsilent : t.handle.link.peer = .silent)
  (hlate : ∀ a ∈ as, now < a.due) (before : List Bytes)

include hend hsilent hlate

/-- A call that has ended has ended for good. -/
theorem call_ahead : (t.ahead before as).call = (some result.reply, t.call.2.ahead before as) := by
  obtain ⟨hcall, hfinish, hle⟩ := ended?_eq_some hend
  refine Handle.call_ahead hsilent hcall (fun a ha => ?_) before
  exact Nat.lt_of_le_of_lt (hfinish ▸ hle) (hlate a ha)

theorem result?_ahead : (t.ahead before as).result? = some result := by
  obtain ⟨-, hfinish, -⟩ := ended?_eq_some hend
  rw [result?, call_ahead hend hsilent hlate, Option.map_some]
  exact congrArg some (congrArg (Result.mk result.reply) hfinish.symm)

theorem leave_ahead (registered : Handle) :
    (t.ahead before as).leave registered = (t.leave registered).ahead before as := by
  rw [leave, call_ahead hend hsilent hlate]
  rfl

end

/-- With a deadline, a call has ended when the time is up at which it ends if nothing more comes. -/
theorem exists_ended? {t : Turn} {limit : Nanos} (hlimit : t.errand.limit = some limit)
    (hfree : t.handle.held = false) :
    ∃ result, t.result? = some result ∧ t.ended? result.finish = some result := by
  have hends : t.call.1.isSome = true := by
    rw [call, hlimit]
    exact Handle.isSome_call_of_deadline hfree _
  obtain ⟨reply, hreply⟩ := Option.isSome_iff_exists.mp hends
  have hresult : t.result? = some ⟨reply, t.call.2.link.now⟩ := by
    rw [result?, hreply, Option.map_some]
  refine ⟨_, hresult, ?_⟩
  rw [ended?, hresult]
  exact Option.filter_some_pos (decide_eq_true (Nat.le_refl _))

/-- Frames that are forgotten were handed over before. -/
theorem ahead_forget (e : Errand) (registered : Handle) (before : List Bytes)
    (as : List Arrival) :
    (Turn.mk e { registered with link := registered.link.forget }).ahead
      (before ++ registered.link.taken) as = ⟨e, registered.ahead before as⟩ := by
  simp [ahead, Handle.ahead, Link.ahead, Link.forget]

/-- A call does not bring back trust that was ended before it. -/
theorem leave_registered (e : Errand) (registered : Handle) (before : List Bytes)
    (as : List Arrival) :
    (Turn.mk e (registered.ahead before as)).leave registered =
      (Turn.mk e (registered.ahead before as)).call.2 := by
  have halive := ((registered.ahead before as).call_leaves e.request e.limit e.start).2
  have hsame : (registered.ahead before as).alive = registered.alive := rfl
  rw [leave, call, halive, hsame, Bool.and_self_left, ← hsame, ← halive]

/-- Trust that is ended while a call lasts is ended after it. -/
theorem leave_kill (t : Turn) (registered : Handle) :
    t.leave registered.kill = (t.leave registered).kill := by
  simp [leave, Handle.kill]

/-- When the call of a turn begins. -/
def start (t : Turn) : Nanos := max t.handle.link.now t.errand.start

/-- The frames that a call hands over are known when its turn comes. -/
theorem taken_call_ahead {t : Turn} {as : List Arrival} (hlate : ∀ a ∈ as, t.start < a.due)
    (before : List Bytes) : (t.ahead before as).call.2.link.taken = before ++ t.frames :=
  Handle.taken_call_ahead hlate before

end Turn

end SumCluster
