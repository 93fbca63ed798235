import SumCluster.Proofs.Handle.Credit

/-!
A handle whose worker answers. As long as every subtask that it is sent fits its frames and is
answered with one result in time, a call returns the value that belongs to the subtask, and leaves
the handle as ready as it found it.
-/

namespace SumCluster

open Network (Arrival Link Event spoken ends)
open Network.Link (Hears)
open Wire (Bytes Message SubtaskRequest)

namespace Network

/-- Arrivals that bring one whole result with some value, in pieces, before a deadline if there is
one, and nothing else. -/
structure Tells (limit : Nat) (deadline : Option Nanos) (v : Int32) (as : List Arrival) : Prop where
  pieces : ∀ a ∈ as, ∃ chunk, a.event = .bytes chunk ∧ chunk ≠ []
  result : ∃ workerId, (Message.subtaskResult ⟨v, workerId⟩).toBody.length ≤ limit ∧
    spoken as = (Message.subtaskResult ⟨v, workerId⟩).frame
  prompt : ∀ t, deadline = some t → ∀ a ∈ as, a.due ≤ t

/-- Pieces do not end the stream. -/
theorem ends_of_pieces {as : List Arrival}
    (h : ∀ a ∈ as, ∃ chunk, a.event = .bytes chunk ∧ chunk ≠ []) : ends as = false := by
  rw [ends, List.any_eq_false]
  intro a ha
  obtain ⟨chunk, hchunk, _⟩ := h a ha
  simp [hchunk, Event.ends]

/-- Pieces that bring nothing are none. -/
theorem eq_nil_of_spoken {as : List Arrival}
    (h : ∀ a ∈ as, ∃ chunk, a.event = .bytes chunk ∧ chunk ≠ []) (hs : spoken as = []) :
    as = [] := by
  rcases as with _ | ⟨⟨due, event⟩, as⟩
  · rfl
  · obtain ⟨chunk, hchunk, hne⟩ := h _ List.mem_cons_self
    obtain rfl : event = .bytes chunk := hchunk
    exact absurd (List.append_eq_nil_iff.mp hs).1 hne

namespace Link

/-- A connection on which nothing is unread or on its way. -/
structure Ready (l : Link) : Prop where
  sound : l.connection.Sound
  unread : l.connection.stream = []
  idle : l.coming = []
  opened : l.connection.closed = false
  there : l.gone = false

variable {l l' : Link}

theorem settle_of_idle (h : l.coming = []) : l.settle = l := by
  rw [settle, h, settleFrom]
  cases l
  simp_all

/-- A connection whose pieces have all been read is ready. -/
theorem Keeps.ready (keeps : Keeps l l.coming l')
    (pieces : ∀ a ∈ l.coming, ∃ chunk, a.event = .bytes chunk ∧ chunk ≠ [])
    (opened : l.connection.closed = false) (there : l.gone = false)
    (sound : l'.connection.Sound) (read : l'.stream = []) : l'.Ready := by
  have hclosing : l'.closing = false := by
    rw [keeps.closing, closingWith, opened, ends_of_pieces pieces]
    rfl
  obtain ⟨hopened, _⟩ := Bool.or_eq_false_iff.mp hclosing
  obtain ⟨hunread, hcoming⟩ := List.append_eq_nil_iff.mp read
  rw [hopened] at hcoming
  refine ⟨sound, hunread, ?_, hopened, ?_⟩
  · exact eq_nil_of_spoken (fun a ha => pieces a (keeps.coming.subset ha)) hcoming
  · rw [Bool.eq_false_iff]
    intro hgone
    rcases keeps.gone hgone with hgone | ⟨a, ha, he⟩
    · exact absurd (hgone.symm.trans there) (by decide)
    · obtain ⟨chunk, hchunk, _⟩ := pieces a ha
      cases hchunk.symm.trans he

theorem Ready.stream (h : l.Ready) : l.stream = [] := by
  rw [Link.stream, streamWith, h.unread, h.idle, h.opened]
  rfl

theorem Ready.closing (h : l.Ready) : l.closing = false := by
  rw [Link.closing, closingWith, h.idle, h.opened]
  rfl

theorem Ready.advance (h : l.Ready) (t : Nanos) : (l.advance t).Ready :=
  ⟨h.sound, h.unread, h.idle, h.opened, h.there⟩

section

variable {limit : Option Nanos} {v : Int32} {frame : Bytes}

theorem Ready.coming_hand (h : l.Ready) (frame : Bytes) : (l.hand frame).coming =
    (l.peer.react (l.taken ++ [frame])).map fun a => { a with due := l.now + a.due } := by
  rw [hand, h.idle, List.nil_append]

theorem Ready.pieces_hand (h : l.Ready)
    (ht : Tells l.limit limit v (l.peer.react (l.taken ++ [frame]))) :
    ∀ a ∈ (l.hand frame).coming, ∃ chunk, a.event = .bytes chunk ∧ chunk ≠ [] := by
  rw [h.coming_hand]
  intro a ha
  obtain ⟨b, hb, rfl⟩ := List.mem_map.mp ha
  exact ht.pieces b hb

/-- The result that is told stands alone at the front of the stream. -/
theorem Ready.front_hand (h : l.Ready)
    (ht : Tells l.limit limit v (l.peer.react (l.taken ++ [frame]))) :
    ∃ workerId, (Message.subtaskResult ⟨v, workerId⟩).toBody.length ≤ l.limit ∧
      Wire.Frame.front (l.hand frame).limit ((l.hand frame).streamWith (l.hand frame).coming) =
        .whole (Message.subtaskResult ⟨v, workerId⟩).toBody [] := by
  obtain ⟨workerId, hfits, hspoken⟩ := ht.result
  refine ⟨workerId, hfits, ?_⟩
  have hstream : (l.hand frame).stream = (Message.subtaskResult ⟨v, workerId⟩).frame := by
    rw [stream_hand, h.stream, h.closing, hspoken]
    rfl
  change Wire.Frame.front l.limit (l.hand frame).stream = _
  rw [hstream]
  exact Message.front_frame hfits h.sound.decoder.limit_le

/-- Waiting on a connection to a far end that has been handed a frame and tells a result. -/
theorem Ready.hears (h : l.Ready) (ht : Tells l.limit limit v (l.peer.react (l.taken ++ [frame])))
    {heard : Heard}
    (hh : Hears (limit.map (l.now + ·)) (l.hand frame) (l.hand frame).coming (heard, l')) :
    ∃ workerId, heard = .answer (.ok (some (.subtaskResult ⟨v, workerId⟩))) ∧ l'.Ready := by
  obtain ⟨workerId, hfits, hfront⟩ := h.front_hand ht
  have hbody := Message.ofBody_toBody_of_le (Nat.le_trans hfits h.sound.decoder.limit_le)
  have hprompt : ∀ t, limit.map (l.now + ·) = some t → ∀ a ∈ (l.hand frame).coming, a.due ≤ t := by
    intro t hd a ha
    rw [h.coming_hand] at ha
    obtain ⟨b, hb, rfl⟩ := List.mem_map.mp ha
    obtain ⟨t, ht', rfl⟩ := Option.map_eq_some_iff.mp hd
    exact Nat.add_le_add_left (ht.prompt t ht' b hb) l.now
  obtain ⟨_, heq, keeps, hrest, hsound⟩ := hh.of_whole hfront hprompt
  obtain ⟨rfl, rfl⟩ := Prod.mk.inj heq
  refine ⟨workerId, by rw [hbody]; rfl, ?_⟩
  exact keeps.ready (h.pieces_hand ht) h.opened h.there (hsound _ hbody) hrest

end

end Link

end Network

namespace Handle

variable {h : Handle} {fit : SubtaskRequest → Prop} {value : SubtaskRequest → Int32}
  {limit : Option Nanos}

/-- A handle whose worker answers: of the subtasks that are `fit`, whatever came before, each one
fits a frame and is answered with its `value` within the limit. -/
structure Serves (h : Handle) (fit : SubtaskRequest → Prop) (value : SubtaskRequest → Int32)
    (limit : Option Nanos) : Prop where
  usable : h.Usable
  ready : h.link.Ready
  sends : ∀ q, fit q → (Message.subtaskRequest q).toBody.length ≤ h.link.limit
  answers : ∀ (more : List SubtaskRequest) (q : SubtaskRequest), (∀ p ∈ more, fit p) → fit q →
    Network.Tells h.link.limit limit (value q)
      (h.link.peer.react (h.link.taken ++ framesOf (more ++ [q])))

theorem Serves.mono {fit' : SubtaskRequest → Prop} (hs : h.Serves fit value limit)
    (hfit : ∀ q, fit' q → fit q) : h.Serves fit' value limit :=
  ⟨hs.usable, hs.ready, fun q hq => hs.sends q (hfit q hq),
    fun more q hmore hq => hs.answers more q (fun p hp => hfit p (hmore p hp)) (hfit q hq)⟩

/-- What a call that is answered leaves: the same handle, ready for the next one. -/
structure Answered (h : Handle) (q : SubtaskRequest) (h' : Handle) : Prop where
  usable : h'.Usable
  ready : h'.link.Ready
  workerId : h'.workerId = h.workerId
  peer : h'.link.peer = h.link.peer
  limit : h'.link.limit = h.link.limit
  taken : h'.link.taken = h.link.taken ++ framesOf [q]

/-- A call whose subtask fits is sent. -/
theorem call_of_ready (hu : h.Usable) (hready : h.link.Ready) {q : SubtaskRequest}
    (fits : (Message.subtaskRequest q).toBody.length ≤ h.link.limit) (start : Nanos) :
    h.call start q limit = { h with link := h.link.advance start }.hearing limit
      (((h.link.advance start).hand (Message.subtaskRequest q).frame).recv
        (limit.map ((h.link.advance start).now + ·))) := by
  have hsettle : (h.link.advance start).settle = h.link.advance start :=
    Network.Link.settle_of_idle (hready.advance start).idle
  have hsent : Handle.sent { h with link := h.link.advance start } q =
      (h.link.advance start).hand (Message.subtaskRequest q).frame := by
    rw [sent, hsettle]
  rw [call_of_usable hu, exchange_of_sent (h := { h with link := h.link.advance start }) fits
    (by rw [hsettle]; exact hready.there), hsent]
  rfl

/-- A call that is told a result in time is answered with it. -/
theorem call_of_tells (hu : h.Usable) (hready : h.link.Ready) {q : SubtaskRequest} {v : Int32}
    (fits : (Message.subtaskRequest q).toBody.length ≤ h.link.limit)
    (tells : Network.Tells h.link.limit limit v
      (h.link.peer.react (h.link.taken ++ framesOf [q]))) (start : Nanos) :
    ∃ workerId h', h.call start q limit = (some (.ok ⟨v, workerId⟩), h') ∧ h.Answered q h' := by
  rw [call_of_ready hu hready fits]
  have hnow := hready.advance start
  have hears := Network.Link.recv_hears
    (l := (h.link.advance start).hand (Message.subtaskRequest q).frame) hnow.sound
    (limit.map ((h.link.advance start).now + ·))
  generalize Network.Link.recv _ _ = result at hears ⊢
  obtain ⟨heard, link⟩ := result
  obtain ⟨workerId, rfl, hlink⟩ := hnow.hears tells hears
  have hkeeps := hears.keeps
  exact ⟨workerId, { h with link := link }, rfl, hu, hlink, rfl, hkeeps.peer, hkeeps.limit,
    hkeeps.taken⟩

/-- A call on a handle whose worker answers. -/
theorem Serves.call (hs : h.Serves fit value limit) {q : SubtaskRequest} (hq : fit q)
    (start : Nanos) :
    ∃ workerId h', h.call start q limit = (some (.ok ⟨value q, workerId⟩), h') ∧
      h'.Serves fit value limit ∧ h'.workerId = h.workerId ∧
      h'.link.taken = h.link.taken ++ framesOf [q] := by
  obtain ⟨workerId, h', hcall, answered⟩ :=
    call_of_tells hs.usable hs.ready (hs.sends q hq) (hs.answers [] q nofun hq) start
  refine ⟨workerId, h', hcall, ⟨answered.usable, answered.ready, ?_, ?_⟩, answered.workerId,
    answered.taken⟩
  · intro p hp
    exact Nat.le_trans (hs.sends p hp) (Nat.le_of_eq answered.limit.symm)
  · intro more p hmore hp
    have hnext := hs.answers (q :: more) p (List.forall_mem_cons.mpr ⟨hq, hmore⟩) hp
    have hframes : h'.link.taken ++ framesOf (more ++ [p]) =
        h.link.taken ++ framesOf ((q :: more) ++ [p]) := by
      rw [answered.taken]
      simp [framesOf]
    rw [answered.peer, answered.limit, hframes]
    exact hnext

end Handle

end SumCluster
