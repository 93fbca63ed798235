import SumCluster.Proofs.Handle.Lifetime

/-!
The limit of a connection is set once. Whatever is received, sent or lost, and however a call ends,
the longest body that the connection takes stays what it was. So what fits it at first fits it at
every call.
-/

namespace SumCluster

open Network (Arrival Heard Link)
open Wire (Message SubtaskRequest)

/-! ### Receiving -/

namespace Wire

theorem Frame.Decoder.limit_takeBody (d : Decoder) (n : Nat) (buffer : Bytes) :
    (d.takeBody n buffer).2.1.limit = d.limit := by
  unfold takeBody
  split <;> rfl

theorem Frame.Decoder.limit_decode (d : Decoder) (buffer : Bytes) :
    (d.decode buffer).2.1.limit = d.limit := by
  unfold decode
  split
  · exact d.limit_takeBody ..
  · split_ifs
    · rfl
    · rfl
    · exact d.limit_takeBody ..

theorem Frame.Decoder.limit_decodeEnd (d : Decoder) (buffer : Bytes) :
    (d.decodeEnd buffer).2.1.limit = d.limit := by
  have hdecode := d.limit_decode buffer
  unfold decodeEnd
  split
  · rename_i hstep
    rwa [hstep] at hdecode
  · exact hdecode

namespace Connection

theorem limit_drain (c : Connection) : c.drain.2.limit = c.limit :=
  c.decoder.limit_decodeEnd c.buffer

theorem limit_fromBuffer (c : Connection) :
    (Sum.elim Prod.snd id c.fromBuffer).limit = c.limit := by
  have hdecode := c.decoder.limit_decode c.buffer
  unfold fromBuffer
  split_ifs
  · exact c.limit_drain
  · rcases hd : c.decoder.decode c.buffer with ⟨e | _ | m, d, rest⟩ <;> rw [hd] at hdecode <;>
      exact hdecode
  · rfl

theorem limit_fromWaiting (c : Connection) :
    (Sum.elim Prod.snd id c.fromWaiting).limit = c.limit := by
  unfold fromWaiting
  split_ifs
  · rfl
  · exact limit_fromBuffer _

theorem limit_fromEnd (c : Connection) : c.fromEnd.2.limit = c.limit := by
  unfold fromEnd
  split_ifs
  · rfl
  · exact limit_drain _
  · rfl

/-- A receive leaves the limit as it is, whatever has gone wrong before. -/
theorem limit_recv (c : Connection) : c.recv.2.limit = c.limit := by
  have hbuffer := c.limit_fromBuffer
  unfold recv
  split_ifs
  · rfl
  · rcases hb : c.fromBuffer with ⟨outcome, c₁⟩ | c₁
    · rwa [hb] at hbuffer
    · rw [hb] at hbuffer
      have hwaiting := c₁.limit_fromWaiting
      rcases hw : c₁.fromWaiting with ⟨outcome, c₂⟩ | c₂ <;> rw [hw] at hwaiting <;> simp only [hw]
      · exact hwaiting.trans hbuffer
      · exact c₂.limit_fromEnd.trans (hwaiting.trans hbuffer)

end Connection

end Wire

/-! ### Waiting and sending -/

namespace Network.Link

theorem limit_hear (deadline : Option Nanos) (l : Link) (as : List Arrival) :
    (hear deadline l as).2.limit = l.limit := by
  induction as generalizing l with
  | nil =>
    have hrecv := l.connection.limit_recv
    unfold hear
    generalize l.connection.recv = answer at hrecv ⊢
    obtain ⟨_ | outcome, c⟩ := answer
    · cases deadline <;> exact hrecv
    · exact hrecv
  | cons a as ih =>
    have hrecv := l.connection.limit_recv
    unfold hear
    generalize l.connection.recv = answer at hrecv ⊢
    obtain ⟨_ | outcome, c⟩ := answer
    · have next : (hear deadline (({ l with connection := c }.advance a.due).deliver a.event)
          as).2.limit = l.limit :=
        (ih _).trans ((limit_deliver ..).trans hrecv)
      cases deadline with
      | none => exact next
      | some t =>
        show (if t < a.due then _ else _ : Heard × Link).2.limit = l.limit
        split_ifs
        · exact hrecv
        · exact next
    · exact hrecv

theorem limit_cut (l : Link) (t : Nanos) : (l.cut t).limit = l.limit :=
  (settle_settles (l.advance t)).limit

end Network.Link

/-! ### Handles -/

namespace Handle

theorem limit_exchange (h : Handle) (request : SubtaskRequest) (limit : Option Nanos) :
    (h.exchange request limit).2.link.limit = h.link.limit := by
  have hsettle : h.link.settle.limit = h.link.limit := (Link.settle_settles h.link).limit
  by_cases hfits : (Message.subtaskRequest request).toBody.length ≤ h.link.limit
  · cases hgone : h.link.settle.gone with
    | true =>
      rw [exchange_of_gone hfits hgone]
      exact hsettle
    | false =>
      rw [exchange_of_sent hfits hgone, link_hearing]
      exact (Link.limit_hear ..).trans hsettle
  · rw [exchange_of_lt (Nat.not_le.mp hfits)]
    rfl

theorem limit_use (h : Handle) : ∀ u : Use, (h.use u).link.limit = h.link.limit
  | .call start request limit => by
    show (h.call start request limit).2.link.limit = h.link.limit
    unfold call
    split_ifs
    · rfl
    · exact limit_exchange { h with link := h.link.advance start } request limit
    · rfl
  | .kill => rfl
  | .cut t => h.link.limit_cut t

/-- The limit of a connection is the same after all that happens to its handle. -/
theorem limit_after (h : Handle) (us : List Use) : (h.after us).link.limit = h.link.limit := by
  induction us generalizing h with
  | nil => rfl
  | cons u us ih => exact (ih (h.use u)).trans (h.limit_use u)

end Handle

end SumCluster
