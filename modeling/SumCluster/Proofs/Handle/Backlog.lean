import SumCluster.Proofs.Handle.Lifetime
import SumCluster.Proofs.Network.Opening

/-!
A handle on whose connection something is unread. A call puts what its subtask sets off behind what
is there and takes its answer from the front; so results that are unread answer the next calls, first
in, first out, whatever these calls ask for.
-/

namespace SumCluster

open Network (Link)
open Wire (Bytes Message SubtaskRequest SubtaskResult)

namespace Network.Link

variable {l : Link}

/-- A far end that stays is there when a frame is handed over, and after that. -/
theorem not_leaving_hand (hl : ¬l.Leaving) (hp : l.peer.Stays) (frame : Bytes) :
    ¬(l.hand frame).Leaving := by
  rintro (hgone | ⟨a, ha, he⟩)
  · exact hl (.inl hgone)
  · rcases List.mem_append.mp ha with ha | ha
    · exact hl (.inr ⟨a, ha, he⟩)
    · obtain ⟨b, hb, rfl⟩ := List.mem_map.mp ha
      exact hp _ b hb he

theorem not_leaving_settle (hl : ¬l.Leaving) : ¬l.settle.Leaving :=
  fun h => hl ((settle_settles l).leaving h)

end Network.Link

namespace Handle

variable {h : Handle} {request : SubtaskRequest}

/-- Some results are unread on a handle that can be called, and its worker stays. -/
structure Stocked (h : Handle) (results : List SubtaskResult) : Prop where
  usable : h.Usable
  sound : h.link.connection.Sound
  stays : ¬h.link.Leaving
  peer : h.link.peer.Stays
  fits : ∀ r ∈ results, (Message.subtaskResult r).toBody.length ≤ h.link.limit
  unread : ∃ more,
    h.link.stream = (results.map fun r => (Message.subtaskResult r).frame).flatten ++ more

/-- A call is answered by the first of the results that are unread. -/
theorem Stocked.exchange {r : SubtaskResult} {results : List SubtaskResult}
    (hs : h.Stocked (r :: results))
    (fits : (Message.subtaskRequest request).toBody.length ≤ h.link.limit) :
    ∃ link, h.exchange request none = (some (.ok r), { h with link := link }) ∧
      { h with link := link }.Stocked results ∧ link.limit = h.link.limit := by
  have hthere : h.link.settle.gone = false :=
    Bool.eq_false_iff.mpr fun hgone => Link.not_leaving_settle hs.stays (.inl hgone)
  have hsettle := Link.settle_settles h.link
  have hsound : (h.sent request).connection.Sound := hsettle.sound hs.sound
  have hlimit : (h.sent request).limit = h.link.limit := hsettle.limit
  obtain ⟨more, hunread⟩ := hs.unread
  -- What the subtask sets off comes behind everything that is unread.
  have hstream := stream_sent h request
  rw [hunread, List.map_cons, List.flatten_cons, List.append_assoc, List.append_assoc] at hstream
  have hbegins := Link.begins_of_stream hsound hstream (hlimit.symm ▸ hs.fits r List.mem_cons_self)
  obtain ⟨link, hrecv, keeps, hrest, hsound'⟩ := hbegins.recv hsound
  have hlink : link.limit = h.link.limit := keeps.limit.trans hlimit
  refine ⟨link, ?_, ⟨hs.usable, hsound', ?_, ?_, ?_, _, hrest⟩, hlink⟩
  · rw [exchange_of_sent fits hthere, Option.map_none, hrecv]
    rfl
  · intro hleaving
    have hp : h.link.settle.peer.Stays := hsettle.peer.symm ▸ hs.peer
    exact Link.not_leaving_hand (Link.not_leaving_settle hs.stays) hp _ (keeps.leaving hleaving)
  · have hpeer : link.peer = h.link.peer := keeps.peer.trans hsettle.peer
    exact hpeer.symm ▸ hs.peer
  · intro r' hr'
    rw [hlink]
    exact hs.fits r' (List.mem_cons_of_mem r hr')

theorem Stocked.advance {results : List SubtaskResult} (hs : h.Stocked results) (t : Nanos) :
    { h with link := h.link.advance t }.Stocked results :=
  ⟨hs.usable, hs.sound, hs.stays, hs.peer, hs.fits, hs.unread⟩

/-- A call that waits as long as it takes. -/
def Use.ofRequest : Nanos × SubtaskRequest → Use
  | (start, request) => .call start request none

/-- Results that are unread answer the next calls in their order. -/
theorem Stocked.replies {results : List SubtaskResult} (hs : h.Stocked results)
    {calls : List (Nanos × SubtaskRequest)} (hlength : calls.length = results.length)
    (fits : ∀ c ∈ calls, (Message.subtaskRequest c.2).toBody.length ≤ h.link.limit) :
    h.replies (calls.map Use.ofRequest) = results.map .ok := by
  -- The handle is general, since each call leaves another one, with one result less.
  induction calls generalizing h results with
  | nil =>
    obtain rfl := List.length_eq_zero_iff.mp hlength.symm
    rfl
  | cons c calls ih =>
    obtain ⟨start, request⟩ := c
    rcases results with _ | ⟨r, results⟩
    · cases hlength
    · obtain ⟨link, hcall, hnext, hlimit⟩ :=
        (hs.advance start).exchange (fits (start, request) List.mem_cons_self)
      rw [← call_of_usable hs.usable] at hcall
      have hrest := ih hnext (Nat.succ.inj hlength) fun c hc => by
        rw [hlimit]
        exact fits c (List.mem_cons_of_mem _ hc)
      rw [List.map_cons, Use.ofRequest, Handle.replies, reply?, use, hcall, hrest]
      rfl

end Handle

end SumCluster
