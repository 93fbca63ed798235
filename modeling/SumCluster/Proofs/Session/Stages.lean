import SumCluster.Proofs.Error
import SumCluster.Proofs.Network.Opening
import SumCluster.Proofs.Round
import SumCluster.Session

/-!
The stages of a session, one by one: what is heard first, the round, and the reply. A session goes
on exactly if a whole frame with a task stands at the front of the client's stream, and from then on
every way through it ends with a reply.
-/

namespace SumCluster

open Network (Link)
open Network.Link (Keeps)
open Wire (ClientResponse Message TaskRequest)

namespace Session

/-- What comes first on a connection is a frame with a task. -/
def Opens (client : Link) (task : TaskRequest) : Prop :=
  ∃ body rest, client.stream = Wire.Frame.wrap body ++ rest ∧ body.length ≤ client.limit ∧
    Message.ofBody body = .ok (.taskRequest task)

variable {client client' : Link} {task : TaskRequest}

theorem opens_iff : Opens client task ↔ ∃ rest, client.Begins (.taskRequest task) rest := by
  constructor
  · rintro ⟨body, rest, hopens⟩
    exact ⟨rest, body, hopens⟩
  · rintro ⟨rest, body, hbegins⟩
    exact ⟨body, rest, hbegins⟩

theorem Opens.unique (hl : client.connection.Sound) {task' : TaskRequest}
    (h : Opens client task) (h' : Opens client task') : task = task' := by
  obtain ⟨rest, hbegins⟩ := opens_iff.mp h
  obtain ⟨rest', hbegins'⟩ := opens_iff.mp h'
  exact Message.taskRequest.inj (hbegins.unique hl hbegins').1

/-! ### What is heard first -/

theorem judge_ok {outcome : Except Wire.ProtocolError (Option Message)}
    (h : judge outcome = .ok task) : outcome = .ok (some (.taskRequest task)) := by
  unfold judge at h
  split at h
  · cases h
  · cases h
  · rename_i m
    cases m <;> simp_all [Message.asTaskRequest]

/-- All that waiting for the task can come to. -/
inductive Reads (client : Link) : Option (Except Closing TaskRequest) × Link → Prop where
  /-- A task came first. -/
  | task {task : TaskRequest} {client' : Link} (opens : Opens client task)
      (keeps : Keeps client client.coming client') : Reads client (some (.ok task), client')
  /-- Something else came first, the end of the stream included. -/
  | other {why : Closing} {client' : Link} (opens : ∀ task, ¬Opens client task)
      (keeps : Keeps client client.coming client') : Reads client (some (.error why), client')
  /-- More may still come. -/
  | waits {client' : Link} (hopen : client.closing = false) (opens : ∀ task, ¬Opens client task)
      (keeps : Keeps client client.coming client') : Reads client (none, client')

theorem read_reads (hl : client.connection.Sound) : Reads client (read client) := by
  have hfirst := Network.Link.recv_first hl
  have hother (hno : ∀ m rest, ¬client.Begins m rest) (task : TaskRequest) :
      ¬Opens client task := by
    intro ho
    obtain ⟨rest, hbegins⟩ := opens_iff.mp ho
    exact hno _ rest hbegins
  unfold read
  generalize client.recv none = result at hfirst ⊢
  cases hfirst with
  | @message m rest client' hbegins keeps =>
    change Reads client (some (judge (.ok (some m))), client')
    cases hj : judge (.ok (some m)) with
    | ok task =>
      obtain rfl : m = .taskRequest task := Option.some.inj (Except.ok.inj (judge_ok hj))
      exact .task (opens_iff.mpr ⟨rest, hbegins⟩) keeps
    | error why =>
      refine .other (fun task ho => ?_) keeps
      obtain ⟨rest', hbegins'⟩ := opens_iff.mp ho
      obtain ⟨rfl, _⟩ := hbegins.unique hl hbegins'
      cases hj
  | @other outcome client' hno hmessage keeps =>
    change Reads client (some (judge outcome), client')
    cases hj : judge outcome with
    | ok task => exact absurd (judge_ok hj) (hmessage _)
    | error why => exact .other (hother hno) keeps
  | waits hno hopen keeps => exact .waits hopen (hother hno) keeps

/-- A task that comes first is heard. -/
theorem Opens.read (hl : client.connection.Sound) (h : Opens client task) :
    ∃ client', read client = (some (.ok task), client') ∧ Keeps client client.coming client' := by
  have hreads := read_reads hl
  generalize Session.read client = result at hreads ⊢
  cases hreads with
  | task h' keeps => exact ⟨_, by rw [h.unique hl h'], keeps⟩
  | other hno => exact absurd h (hno task)
  | waits _ hno => exact absurd h (hno task)

/-! ### The reply -/

theorem reply?_of_nodup (task : TaskRequest) {o : RoundOutcome}
    (h : (o.partials.map (·.value)).Nodup) :
    reply? (answer task o) = some (.clientResponse ⟨wrappingSum (o.partials.map (·.value)),
      Nanos.toMillis (baseline task.values task.delayMs).slept, Nanos.toMillis o.elapsed⟩) := by
  rw [answer, Consensus.validate_of_nodup h, ← aggregate_eq_wrappingSum]
  rfl

theorem reply?_of_not_nodup (task : TaskRequest) {o : RoundOutcome}
    (h : ¬(o.partials.map (·.value)).Nodup) :
    reply? (answer task o) = some (.errorResponse ⟨ClusterError.consensusFailedCode,
      (ClusterError.consensusFailed (o.partials.map (·.value)).toFinset.card
        o.partials.length).message⟩) := by
  rw [answer, Consensus.validate_of_not_nodup h]
  rfl

/-- A session has replied to its client: one frame is written, unless the client is gone or the reply
is too long for a frame. -/
structure Replies (client : Link) (before : List SessionState) (m : Message)
    (result : SessionRecord × Link) : Prop where
  states : result.1.states = before ++ [.responding, .closed]
  leaving : result.2.gone = true → client.Leaving
  taken : m.toBody.length ≤ client.limit →
    result.2.taken = client.taken ++ if result.2.gone then [] else [m.frame]
  closing : m.toBody.length ≤ client.limit → result.2.gone = false → result.1.closing = none
  unsent : client.limit < m.toBody.length →
    result.2.taken = client.taken ∧ result.1.closing = some (.unsent .frameTooBig)

theorem Replies.of_keeps {before : List SessionState} {m : Message} {result : SessionRecord × Link}
    (keeps : Keeps client client.coming client') (h : Replies client' before m result) :
    Replies client before m result := by
  refine ⟨h.states, fun hgone => keeps.leaving (h.leaving hgone), ?_, ?_, ?_⟩
  · intro hfits
    rw [h.taken (keeps.limit ▸ hfits), keeps.taken]
  · intro hfits
    exact h.closing (keeps.limit ▸ hfits)
  · intro hlong
    obtain ⟨htaken, hclosing⟩ := h.unsent (keeps.limit ▸ hlong)
    exact ⟨htaken.trans keeps.taken, hclosing⟩

section

variable {m : Message} {answer : Except ClusterError ClientResponse}

theorem respond_of_sent (hm : reply? answer = some m) (hfits : m.toBody.length ≤ client.limit)
    (hthere : client.settle.gone = false) (before : List SessionState) :
    respond client before answer =
      (⟨before ++ [.responding, .closed], none⟩, client.settle.hand m.frame) := by
  rw [respond, hm]
  simp [Network.Link.send_of_le hfits, hthere]

theorem respond_of_gone (hm : reply? answer = some m) (hfits : m.toBody.length ≤ client.limit)
    (hgone : client.settle.gone = true) (before : List SessionState) :
    respond client before answer =
      (⟨before ++ [.responding, .closed], some (.unsent .brokenPipe)⟩, client.settle) := by
  rw [respond, hm]
  simp [Network.Link.send_of_le hfits, hgone]

theorem respond_of_lt (hm : reply? answer = some m) (hlong : client.limit < m.toBody.length)
    (before : List SessionState) : respond client before answer =
      (⟨before ++ [.responding, .closed], some (.unsent .frameTooBig)⟩, client) := by
  rw [respond, hm]
  simp [Network.Link.send_of_lt hlong]

theorem respond_replies (hm : reply? answer = some m) (before : List SessionState) :
    Replies client before m (respond client before answer) := by
  have hsettle := Network.Link.settle_settles client
  by_cases hfits : m.toBody.length ≤ client.limit
  · cases hgone : client.settle.gone with
    | true =>
      rw [respond_of_gone hm hfits hgone]
      refine ⟨rfl, fun _ => hsettle.gone hgone, fun _ => ?_, fun _ h => ?_,
        fun hlong => absurd hfits (Nat.not_le.mpr hlong)⟩
      · simp only [hgone, if_true, List.append_nil, hsettle.taken]
      · exact absurd (hgone.symm.trans h) (by decide)
    | false =>
      rw [respond_of_sent hm hfits hgone]
      have hthere : (client.settle.hand m.frame).gone = false := hgone
      refine ⟨rfl, fun h => ?_, fun _ => ?_, fun _ _ => rfl,
        fun hlong => absurd hfits (Nat.not_le.mpr hlong)⟩
      · exact absurd (hthere.symm.trans h) (by decide)
      · rw [hthere, ← hsettle.taken]
        rfl
  · rw [respond_of_lt hm (Nat.not_le.mp hfits)]
    exact ⟨rfl, .inl, fun h => absurd h hfits, fun h => absurd h hfits, fun _ => ⟨rfl, rfl⟩⟩

end

/-! ### A whole session -/

variable {d : Dispatcher} {r : Registry}

theorem checkedSnapshot_of_le (h : d.minWorkers ≤ r.snapshot.length) :
    r.checkedSnapshot d.minWorkers = .ok r.snapshot := by
  rw [Registry.checkedSnapshot, quorum, if_neg (Nat.not_lt.mpr h)]

theorem checkedSnapshot_of_lt (h : r.snapshot.length < d.minWorkers) :
    r.checkedSnapshot d.minWorkers =
      .error (.insufficientWorkers r.snapshot.length d.minWorkers) := by
  rw [Registry.checkedSnapshot, quorum, if_pos h]

/-- The round that a session with enough workers asks for, when it hears a task at a moment. -/
def roundFor (d : Dispatcher) (r : Registry) (moment : Nanos) (task : TaskRequest) : Round :=
  ⟨task, r.snapshot, moment + (baseline task.values task.delayMs).slept, d.limit⟩

/-- A session whose task is handed out and whose round ends. -/
theorem serve_of_task {o : RoundOutcome} {m : Message}
    (hread : read client = (some (.ok task), client'))
    (keeps : Keeps client client.coming client') (hquorum : d.minWorkers ≤ r.snapshot.length)
    (hround : (r.dispatch (roundFor d r client'.now task)).1 = some o)
    (hm : reply? (answer task o) = some m) : ∃ record client'',
      serve d r client =
        ((some record, client''), (r.dispatch (roundFor d r client'.now task)).2) ∧
      Replies client
        [.awaitingTask, .computingBaseline, .checkingQuorum, .dispatching, .validating] m
        (record, client'') := by
  have hdispatch : r.dispatch (round d client' (.dispatching task r.snapshot)) =
      (some o, (r.dispatch (roundFor d r client'.now task)).2) :=
    Prod.ext hround rfl
  let late := client'.advance (client'.now + (baseline task.values task.delayMs).slept + o.elapsed)
  have keeps' : Keeps client client.coming late :=
    ⟨keeps.peer, keeps.taken, keeps.limit, keeps.coming, keeps.gone, keeps.closing⟩
  have hreplies := Replies.of_keeps keeps' (respond_replies hm
    [.awaitingTask, .computingBaseline, .checkingQuorum, .dispatching, .validating])
  refine ⟨_, _, ?_, hreplies⟩
  rw [serve, hread]
  simp only [enter, checkedSnapshot_of_le hquorum, hdispatch, conclude]
  rfl

/-- A session whose task finds too few workers hands nothing out. -/
theorem serve_of_refused (hread : read client = (some (.ok task), client'))
    (keeps : Keeps client client.coming client') (hquorum : r.snapshot.length < d.minWorkers) :
    ∃ record client'', serve d r client = ((some record, client''), r) ∧
      Replies client [.awaitingTask, .computingBaseline, .checkingQuorum]
        (.errorResponse ⟨ClusterError.insufficientWorkersCode,
          (ClusterError.insufficientWorkers r.snapshot.length d.minWorkers).message⟩)
        (record, client'') := by
  let late := client'.advance (client'.now + (baseline task.values task.delayMs).slept)
  have keeps' : Keeps client client.coming late :=
    ⟨keeps.peer, keeps.taken, keeps.limit, keeps.coming, keeps.gone, keeps.closing⟩
  have hreply : reply? (.error (.insufficientWorkers r.snapshot.length d.minWorkers)) =
      some (.errorResponse ⟨ClusterError.insufficientWorkersCode,
        (ClusterError.insufficientWorkers r.snapshot.length d.minWorkers).message⟩) := rfl
  have hreplies := Replies.of_keeps keeps' (respond_replies hreply
    [.awaitingTask, .computingBaseline, .checkingQuorum])
  refine ⟨_, _, ?_, hreplies⟩
  rw [serve, hread]
  simp only [enter, checkedSnapshot_of_lt hquorum, conclude]
  rfl

/-- A session that hears no task ends without a reply and hands nothing out. -/
theorem serve_of_other {why : Closing} (hread : read client = (some (.error why), client')) :
    serve d r client = ((some ⟨[.awaitingTask, .closed], some why⟩, client'), r) := by
  rw [serve, hread]
  rfl

end Session

end SumCluster
