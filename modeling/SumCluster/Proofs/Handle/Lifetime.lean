import SumCluster.Proofs.Handle.Credit
import SumCluster.Proofs.Registry.Trust

/-!
From the first call on a handle to the last. A call that fails leaves the handle dead, and nothing
brings a dead one back; a call on a dead handle is refused without a byte being written. Main
statement: whatever the worker does and whatever ends the trust, the replies of the calls are
answers first and failures from then on, and the worker takes the subtasks of the answered calls and
at most one more.
-/

namespace SumCluster

open Network (Link Arrival)
open Wire (Bytes Message SubtaskRequest SubtaskResult)

/-! ### What the far end has taken -/

namespace Network.Link

theorem taken_settle (l : Link) : l.settle.taken = l.taken := (settle_settles l).taken

theorem taken_cut (l : Link) (t : Nanos) : (l.cut t).taken = l.taken :=
  (settle_settles (l.advance t)).taken

/-- Waiting hands nothing over, whatever comes. -/
theorem taken_hear (deadline : Option Nanos) (l : Link) (as : List Arrival) :
    (hear deadline l as).2.taken = l.taken := by
  induction as generalizing l with
  | nil =>
    unfold hear
    split
    · rfl
    · split <;> rfl
  | cons a as ih =>
    have next (c : Wire.Connection) :
        (hear deadline (({ l with connection := c }.advance a.due).deliver a.event) as).2.taken =
          l.taken :=
      (ih _).trans (taken_deliver ..)
    unfold hear
    split
    · rfl
    · split
      · split
        · rfl
        · exact next _
      · exact next _

end Network.Link

namespace Handle

variable {h : Handle}

/-! ### One use -/

/-- The trust in a handle never comes back. -/
theorem alive_use (u : Use) (halive : (h.use u).alive = true) : h.alive = true := by
  cases u with
  | call start request limit =>
    have hcall := (h.call_leaves request limit start).2
    rw [use] at halive
    rw [halive] at hcall
    exact (Bool.and_eq_true_iff.mp hcall.symm).1
  | kill => cases halive
  | cut t => exact halive

theorem not_usable_use (hu : ¬h.Usable) (u : Use) : ¬(h.use u).Usable := by
  cases u with
  | call start request limit => exact (call_of_not_usable hu start).2
  | kill => exact fun hkill => absurd hkill.1 nofun
  | cut t => exact hu

/-- A call that fails leaves the handle dead. -/
theorem dead_of_failed {start : Nanos} {request : SubtaskRequest} {limit : Option Nanos}
    {u : Unreachable} (hcall : (h.call start request limit).1 = some (.error u)) :
    (h.call start request limit).2.alive = false := by
  rw [(h.call_leaves request limit start).2, hcall]
  exact Bool.and_false _

/-- All that a call on a usable handle can come to: it hands its subtask over, or fails before. -/
inductive HandsOver (h : Handle) (request : SubtaskRequest) : Option Reply × Handle → Prop where
  | answered {r : SubtaskResult} {h' : Handle}
      (taken : h'.link.taken = h.link.taken ++ framesOf [request]) :
      HandsOver h request (some (.ok r), h')
  /-- The handle is dead from then on. -/
  | failed {u : Unreachable} {h' : Handle} {n : Nat} (dead : h'.alive = false) (atMost : n ≤ 1)
      (taken : h'.link.taken = h.link.taken ++ framesOf ([request].take n)) :
      HandsOver h request (some (.error u), h')
  /-- The connection is kept from then on. -/
  | waits {h' : Handle} (held : h'.held = true)
      (taken : h'.link.taken = h.link.taken ++ framesOf [request]) :
      HandsOver h request (none, h')

/-- Waiting for the answer leaves the far end with the subtask that has gone out. -/
theorem taken_recv_sent (h : Handle) (request : SubtaskRequest) (deadline : Option Nanos) :
    ((h.sent request).recv deadline).2.taken = h.link.taken ++ framesOf [request] := by
  rw [← Link.taken_settle h.link]
  exact Link.taken_hear ..

theorem exchange_handsOver (h : Handle) (request : SubtaskRequest) (limit : Option Nanos) :
    HandsOver h request (h.exchange request limit) := by
  have unsent {l : Link} (hl : l.taken = h.link.taken) :
      l.taken = h.link.taken ++ framesOf ([request].take 0) :=
    hl.trans (List.append_nil _).symm
  by_cases hfits : (Message.subtaskRequest request).toBody.length ≤ h.link.limit
  · cases hgone : h.link.settle.gone with
    | true =>
      rw [exchange_of_gone hfits hgone]
      exact .failed rfl (Nat.zero_le _) (unsent (Link.taken_settle _))
    | false =>
      rw [exchange_of_sent hfits hgone]
      have htaken := taken_recv_sent h request (limit.map ((h.sent request).now + ·))
      revert htaken
      rcases (h.sent request).recv _ with ⟨outcome | _ | _, link⟩ <;> intro htaken
      · rw [hearing]
        cases judge outcome with
        | ok r => exact .answered htaken
        | error u => exact .failed rfl (Nat.le_refl _) htaken
      · exact .failed rfl (Nat.le_refl _) htaken
      · exact .waits rfl htaken
  · rw [exchange_of_lt (Nat.not_le.mp hfits)]
    exact .failed rfl (Nat.zero_le _) (unsent rfl)

theorem call_handsOver (hu : h.Usable) (start : Nanos) (request : SubtaskRequest)
    (limit : Option Nanos) : HandsOver h request (h.call start request limit) := by
  have hover := exchange_handsOver { h with link := h.link.advance start } request limit
  rw [call_of_usable hu]
  generalize { h with link := h.link.advance start }.exchange request limit = result at hover ⊢
  cases hover with
  | answered taken => exact .answered taken
  | failed dead atMost taken => exact .failed dead atMost taken
  | waits held taken => exact .waits held taken

/-! ### All uses -/

/-- What a use returns to its caller: the reply of a call that gets the connection and does not wait
forever. -/
def reply? (h : Handle) : Use → Option Reply
  | .call start request limit => (h.call start request limit).1
  | _ => none

/-- The replies of the calls among some uses, in the order in which they get the connection. -/
def replies (h : Handle) : List Use → List Reply
  | [] => []
  | u :: us => (h.reply? u).toList ++ (h.use u).replies us

theorem requests_cons_call (us : List Use) (start : Nanos) (request : SubtaskRequest)
    (limit : Option Nanos) : requests (.call start request limit :: us) = request :: requests us :=
  rfl

theorem after_cons (h : Handle) (u : Use) (us : List Use) :
    h.after (u :: us) = (h.use u).after us := rfl

theorem after_append (h : Handle) (us vs : List Use) :
    h.after (us ++ vs) = (h.after us).after vs := List.foldl_append

theorem replies_append (h : Handle) (us vs : List Use) :
    h.replies (us ++ vs) = h.replies us ++ (h.after us).replies vs := by
  induction us generalizing h with
  | nil => rfl
  | cons u us ih => rw [List.cons_append, replies, replies, ih, List.append_assoc, after_cons]

theorem alive_after (us : List Use) (halive : (h.after us).alive = true) : h.alive = true := by
  induction us generalizing h with
  | nil => exact halive
  | cons u us ih => exact alive_use u (ih halive)

/-- A handle that is out of use answers nothing, and nothing is handed over. -/
theorem replies_of_not_usable (hu : ¬h.Usable) (us : List Use) :
    (∃ failures : List Unreachable, h.replies us = failures.map .error) ∧
      (h.after us).link.taken = h.link.taken := by
  induction us generalizing h with
  | nil => exact ⟨⟨[], rfl⟩, rfl⟩
  | cons u us ih =>
    obtain ⟨⟨failures, hfailures⟩, htaken⟩ := ih (not_usable_use hu u)
    rw [replies, hfailures, after_cons, htaken]
    cases u with
    | call start request limit =>
      rcases held_or_dead hu with hheld | ⟨hheld, hdead⟩
      · rw [reply?, use, call_of_held hheld]
        exact ⟨⟨failures, rfl⟩, rfl⟩
      · rw [reply?, use, call_of_dead hheld hdead]
        exact ⟨⟨.abandoned :: failures, rfl⟩, rfl⟩
    | kill => exact ⟨⟨failures, rfl⟩, rfl⟩
    | cut t => exact ⟨⟨failures, rfl⟩, Link.taken_cut h.link t⟩

/-- The replies are answers first and failures from then on, and what is handed over is the subtasks
of the answered calls and at most one more. -/
theorem replies_after (h : Handle) (us : List Use) :
    ∃ (answers : List SubtaskResult) (failures : List Unreachable) (k : Nat),
      h.replies us = answers.map .ok ++ failures.map .error ∧
      answers.length ≤ k ∧ k ≤ answers.length + 1 ∧
      (h.after us).link.taken = h.link.taken ++ framesOf ((requests us).take k) := by
  induction us generalizing h with
  | nil => exact ⟨[], [], 0, rfl, Nat.le_refl _, Nat.zero_le _, (List.append_nil _).symm⟩
  | cons u us ih =>
    cases u with
    | call start request limit =>
      by_cases hu : h.Usable
      · have hover := call_handsOver hu start request limit
        rw [replies, reply?, after_cons, use, requests_cons_call]
        generalize h.call start request limit = result at hover ⊢
        cases hover with
        | @answered r h' taken =>
          obtain ⟨answers, failures, k, hreplies, hle, hatMost, hall⟩ := ih h'
          refine ⟨r :: answers, failures, k + 1, by rw [hreplies]; rfl, Nat.succ_le_succ hle,
            Nat.succ_le_succ hatMost, ?_⟩
          rw [hall, taken, List.append_assoc]
          rfl
        | @failed u h' n dead atMost taken =>
          have hout : ¬h'.Usable := fun hu => Bool.false_ne_true (dead.symm.trans hu.1)
          obtain ⟨⟨failures, hfailures⟩, hall⟩ := replies_of_not_usable hout us
          refine ⟨[], u :: failures, n, by rw [hfailures]; rfl, Nat.zero_le _, atMost, ?_⟩
          rw [hall, taken]
          obtain rfl | rfl := Nat.le_one_iff_eq_zero_or_eq_one.mp atMost <;> rfl
        | @waits h' held taken =>
          have hout : ¬h'.Usable := fun hu => Bool.false_ne_true (hu.2.symm.trans held)
          obtain ⟨⟨failures, hfailures⟩, hall⟩ := replies_of_not_usable hout us
          refine ⟨[], failures, 1, by rw [hfailures]; rfl, Nat.zero_le _, Nat.le_refl _, ?_⟩
          rw [hall, taken]
          rfl
      · obtain ⟨⟨failures, hfailures⟩, hall⟩ :=
          replies_of_not_usable hu (.call start request limit :: us)
        exact ⟨[], failures, 0, hfailures, Nat.le_refl _, Nat.zero_le _,
          hall.trans (List.append_nil _).symm⟩
    | kill => exact ih h.kill
    | cut t =>
      obtain ⟨answers, failures, k, hreplies, hle, hatMost, hall⟩ := ih (h.cut t)
      exact ⟨answers, failures, k, hreplies, hle, hatMost,
        hall.trans (congrArg (· ++ _) (Link.taken_cut h.link t))⟩

end Handle

end SumCluster
