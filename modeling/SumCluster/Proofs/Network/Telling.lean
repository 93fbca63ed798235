import SumCluster.Proofs.Network.Opening
import SumCluster.Proofs.Wire.Course

/-!
What waiting tells. Without a deadline a connection answers with what comes first of all that there
is to say about its stream, the end of the stream included, and stays silent only if there is nothing
to say. The pieces of the stream and their times make no difference.
-/

namespace SumCluster.Network.Link

open Wire
open Wire.Frame (told outcomes)

variable {l : Link}

/-! ### Deliveries -/

theorem open_deliver (hl : l.connection.Open) : ∀ e : Event, (l.deliver e).connection.Open
  | .bytes chunk => hl.arrive chunk
  | .finish => hl.close
  | .hangUp => hl.close

theorem open_settleFrom (as : List Arrival) (hl : l.connection.Open) :
    (l.settleFrom as).connection.Open := by
  induction as generalizing l with
  | nil => exact hl
  | cons a as ih =>
    unfold settleFrom
    split
    · exact ih (open_deliver hl a.event)
    · exact hl

/-- The end that a frame sets off comes behind all that was on its way. -/
theorem closing_hand (l : Link) (frame : Bytes) :
    (l.hand frame).closing = (l.closing || ends (l.peer.react (l.taken ++ [frame]))) := by
  simp [closing, closingWith, hand, ends, Bool.or_assoc, Function.comp_def]

/-! ### Waiting without a deadline -/

/-- What waiting comes to if this is the first thing to say. -/
def heard : Option Frame.Outcome → Heard
  | some outcome => .answer outcome
  | none => .silence

/-- What there is to say about the bytes that have arrived is said first of all. -/
theorem head?_told_streamWith (hl : l.connection.Open) (as : List Arrival) {o : Frame.Outcome}
    (h : (told l.limit l.connection.closed l.connection.stream).head? = some o) :
    (told l.limit (l.closingWith as) (l.streamWith as)).head? = some o := by
  cases hclosed : l.connection.closed with
  | true =>
    rw [streamWith, closingWith, hclosed, if_pos rfl, List.append_nil, Bool.true_or]
    rwa [hclosed] at h
  | false =>
    rw [hclosed] at h
    obtain ⟨more, hmore⟩ : outcomes l.limit l.connection.stream <+:
        told l.limit (l.closingWith as) (l.streamWith as) :=
      Frame.outcomes_isPrefix hl.decoder.limit_le _ _ _
    change (outcomes l.limit l.connection.stream).head? = some o at h
    rw [← hmore, List.head?_append, h, Option.some_or]

theorem hear_told (as : List Arrival) (hl : l.connection.Open) :
    (hear none l as).1 = heard (told l.limit (l.closingWith as) (l.streamWith as)).head? := by
  induction as generalizing l with
  | nil =>
    have hrecv := hl.recv_told
    have hclosing : l.closingWith [] = l.connection.closed := Bool.or_false _
    have hstream : l.streamWith [] = l.connection.stream := by
      rw [streamWith, spoken, ite_self, List.append_nil]
    rw [hclosing, hstream]
    change _ = heard (told l.connection.limit l.connection.closed l.connection.stream).head?
    rw [← hrecv, hear]
    rcases l.connection.recv with ⟨_ | outcome, c⟩ <;> rfl
  | cons a as ih =>
    have hrecv := hl.recv_told
    have hreceives := hl.toSound.recv
    rcases hanswer : l.connection.recv with ⟨_ | outcome, c⟩ <;> rw [hanswer] at hrecv hreceives
    · cases hreceives with
      | waits _ hopen stays =>
        -- The next arrival joins the stream that was read so far.
        let l₁ : Link := { l with connection := c }.advance a.due
        have hrest := ih (l := l₁.deliver a.event) (open_deliver (stays.isOpen hopen) a.event)
        have hlimit : l₁.limit = l.limit := stays.limit
        have hclosing : l₁.closingWith (a :: as) = l.closingWith (a :: as) := by
          simp only [closingWith, l₁, advance, stays.closed]
        have hstream : l₁.streamWith (a :: as) = l.streamWith (a :: as) := by
          simp only [streamWith, l₁, advance, stays.stream, stays.closed]
        rw [limit_deliver, closingWith_deliver, streamWith_deliver, hlimit, hclosing, hstream] at hrest
        rw [hear, hanswer]
        exact hrest
    · rw [hear, hanswer, head?_told_streamWith hl (a :: as) hrecv.symm]
      rfl

/-- Waiting says what comes first of all that there is to say about what has arrived and what is on
its way. -/
theorem recv_told (hl : l.connection.Open) :
    (l.recv none).1 = heard (told l.limit l.closing l.stream).head? :=
  hear_told l.coming hl

end SumCluster.Network.Link
