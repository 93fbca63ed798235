import SumCluster.Leader
import SumCluster.Proofs.Session.Protocol

/-!
Replies and the frame limit. One setting bounds the frames of a leader in both directions, and it may
be any positive number. Main statement: whatever the limit, every task that is heard gets a reply of
at most 128 bytes; a reply that fits the limit is sent, and one that does not is dropped, so that the
client sees its connection end without a word. The refusal for want of workers takes at least 54
bytes, which is more than a small task does.
-/

namespace SumCluster

open Network (Arrival Link Peer)
open Wire (Message TaskRequest)

namespace Leader

/-- Whatever the limit of a leader, a task that is heard from a client that stays gets one reply of at
most 128 bytes, if the calls of its round come to an end. The client gets it if it fits the limit;
otherwise it gets nothing, and the session keeps the note that its reply was too big. So a limit of
128 bytes is enough for every reply, and one below 54 for no refusal. -/
theorem serve_sends_iff_fits (l : Leader) {peer : Peer} {coming : List Arrival} {now : Nanos}
    {task : TaskRequest} (word : l.config.minWorkers < Word.limit64)
    (stays : ∀ a ∈ coming, a.event ≠ .hangUp)
    (opens : Session.Opens (.fresh l.config.maxFrameLength peer coming now) task)
    (finishes : l.config.minWorkers ≤ l.registry.snapshot.length →
      (l.registry.dispatch (Session.roundFor l.dispatcher l.registry
        (Session.read (.fresh l.config.maxFrameLength peer coming now)).2.now task)).1.isSome) :
    ∃ record client' l', ∃ m : Message,
      l.serve (.fresh l.config.maxFrameLength peer coming now) = ((some record, client'), l') ∧
      (l.registry.snapshot.length < l.config.minWorkers →
        record.states = Session.refusedPath ∧ 54 ≤ m.toBody.length ∧
        m = .errorResponse ⟨1, (ClusterError.insufficientWorkers l.registry.snapshot.length
          l.config.minWorkers).message⟩) ∧
      (l.config.minWorkers ≤ l.registry.snapshot.length → record.states = Session.dispatchedPath ∧
        ((∃ response, m = .clientResponse response) ∨ ∃ text, m = .errorResponse ⟨3, text⟩)) ∧
      m.toBody.length ≤ 128 ∧
      (m.toBody.length ≤ l.config.maxFrameLength →
        client'.taken = [m.frame] ∧ record.closing = none) ∧
      (l.config.maxFrameLength < m.toBody.length →
        client'.taken = [] ∧ record.closing = some (.unsent .frameTooBig)) := by
  have sound := Wire.Connection.sound_fresh l.config.maxFrameLength
  obtain ⟨before, m, r', hreply, hshort, hsession⟩ := Session.serve_of_read (d := l.dispatcher)
    word (opens.length_values_lt sound) finishes
  obtain ⟨heard, hread, keeps⟩ := opens.read sound
  obtain ⟨record, client', hserve, hreplies⟩ := hsession _ heard hread keeps (by rw [hread])
  have hpath := hreplies.states
  generalize before ++ [.responding, .closed] = path at hreply hpath
  have hlongest : m.toBody.length ≤ Wire.Frame.longest := Nat.le_trans hshort (by decide)
  refine ⟨record, client', _, m, by rw [serve, hserve], ?_, ?_, hshort, ?_, ?_⟩
  · intro few
    cases hreply with
    | refused =>
      exact ⟨hpath, ClusterError.le_length_response_insufficientWorkers _ _ _, rfl⟩
    | answered enough => exact absurd few (Nat.not_lt.mpr enough)
  · intro enough
    cases hreply with
    | refused few => exact absurd few (Nat.not_lt.mpr enough)
    | answered _ hkind => exact ⟨hpath, hkind⟩
  · intro hfits
    -- Whoever is gone at the end was so at the start, or has hung up on the way.
    have hthere : client'.gone = false := by
      refine Bool.eq_false_iff.mpr fun hgone => ?_
      rcases hreplies.leaving hgone with h | ⟨a, ha, he⟩
      · cases h
      · exact stays a ha he
    have hroom := Nat.le_min.mpr ⟨hfits, hlongest⟩
    refine ⟨?_, hreplies.closing hroom hthere⟩
    rw [hreplies.taken hroom, hthere]
    rfl
  · intro hlong
    exact hreplies.unsent (Nat.lt_of_le_of_lt (Nat.min_le_left _ _) hlong)

/-- The default settings but for a limit of 20 bytes. -/
def narrow : LeaderConfig := { LeaderConfig.default with maxFrameLength := 20 }

/-- A leader with these settings that nobody has registered with. -/
def alone : Leader := ⟨narrow, .empty, [], true, 0⟩

/-- A client that sends a task of three values and waits. -/
def patient : Link :=
  .fresh 20 .silent [⟨0, .bytes (Message.taskRequest ⟨[1, 2, 3], 0⟩).frame⟩] 0

theorem opens_patient : Session.Opens patient ⟨[1, 2, 3], 0⟩ :=
  ⟨_, [], rfl, by decide, Message.ofBody_toBody_of_le (by decide)⟩

/-- The refusal of its task is known and not sent. -/
theorem serve_sends_iff_fits_alone : ∃ record client' l', ∃ m : Message,
    alone.serve patient = ((some record, client'), l') ∧
    m = .errorResponse ⟨1, (ClusterError.insufficientWorkers 0 3).message⟩ ∧
    client'.taken = [] ∧ record.closing = some (.unsent .frameTooBig) := by
  obtain ⟨record, client', l', m, hserve, hrefused, -, -, -, hdropped⟩ :=
    serve_sends_iff_fits alone (by decide) (by decide) opens_patient (fun h => absurd h (by decide))
  obtain ⟨-, hlong, hm⟩ := hrefused (by decide)
  obtain ⟨htaken, hclosing⟩ := hdropped (Nat.lt_of_lt_of_le (by decide) hlong)
  exact ⟨record, client', l', m, hserve, hm, htaken, hclosing⟩

/-- Settings that pass the check, and a task that is heard and never answered: its client stays and
gets nothing. -/
theorem task_heard_and_not_answered :
    narrow.validate = .ok () ∧ bind narrow (fun _ => .ok ()) = .ok alone ∧
    Session.Opens patient ⟨[1, 2, 3], 0⟩ ∧
    (alone.serve patient).1.1 = some ⟨Session.refusedPath, some (.unsent .frameTooBig)⟩ ∧
    (alone.serve patient).1.2.taken = [] :=
  ⟨rfl, rfl, opens_patient, by decide +kernel, by decide +kernel⟩

end Leader

end SumCluster
