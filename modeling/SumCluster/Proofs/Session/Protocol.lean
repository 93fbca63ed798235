import SumCluster.Proofs.Network.Moment
import SumCluster.Proofs.Session.Answer
import SumCluster.Proofs.Wire.Shortest

/-!
The protocol of a session. A client that listens gets exactly one frame if it opens with a task and
none otherwise, the session goes one of three ways to its end, and what follows the task makes no
difference.
-/

namespace SumCluster

open Network (Arrival Link Peer)
open Wire (Message TaskRequest)

namespace Session

variable {client client' : Link} {task : TaskRequest} {d : Dispatcher} {r : Registry}

/-- The states of a session whose task is handed out. -/
def dispatchedPath : List SessionState :=
  [.awaitingTask, .computingBaseline, .checkingQuorum, .dispatching, .validating, .responding,
    .closed]

/-- The states of a session whose task finds too few workers. -/
def refusedPath : List SessionState :=
  [.awaitingTask, .computingBaseline, .checkingQuorum, .responding, .closed]

/-- The states of a session that hears no task. -/
def idlePath : List SessionState := [.awaitingTask, .closed]

/-! ### Replies fit -/

/-- A task that is heard has fewer values than a length can announce. -/
theorem Opens.length_values_lt (sound : client.connection.Sound) (h : Opens client task) :
    task.values.length < Word.limit64 := by
  obtain ⟨body, rest, _, hfits, hbody⟩ := h
  have hvalues := Message.length_values_lt hbody
  have hlongest := Nat.le_trans hfits sound.decoder.limit_le
  exact Nat.lt_trans (Nat.lt_of_lt_of_le hvalues hlongest) (by decide)

/-- Whatever a round comes to, the reply is a response or the refusal of values that agree, and has
room in a frame of 128 bytes. -/
theorem reply?_answer (task : TaskRequest) {o : RoundOutcome}
    (h : o.partials.length < Word.limit64) : ∃ m,
    reply? (answer task o) = some m ∧ m.toBody.length ≤ 128 ∧
      ((∃ response, m = .clientResponse response) ∨ ∃ text, m = .errorResponse ⟨3, text⟩) := by
  by_cases hnodup : (o.partials.map (·.value)).Nodup
  · refine ⟨_, reply?_of_nodup task hnodup, ?_, .inl ⟨_, rfl⟩⟩
    exact Nat.le_trans (Message.length_clientResponse_le _) (by decide)
  · refine ⟨_, reply?_of_not_nodup task hnodup, ?_, .inr ⟨_, rfl⟩⟩
    have hcard : (o.partials.map (·.value)).toFinset.card < Word.limit64 := by
      refine Nat.lt_of_le_of_lt (List.toFinset_card_le _) ?_
      rwa [List.length_map]
    exact ClusterError.length_response_consensusFailed hcard h _

/-! ### The paths of a session -/

/-- The ways of a session that has heard a task: its states, its reply and the registry after it. -/
inductive Reply (d : Dispatcher) (r : Registry) :
    List SessionState → Message → Registry → Prop where
  | refused (few : r.snapshot.length < d.minWorkers) :
      Reply d r refusedPath (.errorResponse ⟨1,
        (ClusterError.insufficientWorkers r.snapshot.length d.minWorkers).message⟩) r
  | answered {m : Message} {r' : Registry} (enough : d.minWorkers ≤ r.snapshot.length)
      (h : (∃ response, m = .clientResponse response) ∨ ∃ text, m = .errorResponse ⟨3, text⟩) :
      Reply d r dispatchedPath m r'

/-- A client that listens, with room for every reply, opens with a task and is heard at a moment. -/
structure Asks (client : Link) (task : TaskRequest) (moment : Nanos) : Prop where
  sound : client.connection.Sound
  opens : Opens client task
  stays : ¬client.Leaving
  room : 128 ≤ client.limit
  moment : (read client).2.now = moment

theorem Replies.result {before : List SessionState} {m : Message} {record : SessionRecord}
    {moment : Nanos} (h : Replies client before m (record, client'))
    (asks : Asks client task moment) (hm : m.toBody.length ≤ 128) :
    record = ⟨before ++ [.responding, .closed], none⟩ ∧
      client'.taken = client.taken ++ [m.frame] := by
  have hfits := Nat.le_trans hm asks.room
  have hthere : client'.gone = false := Bool.eq_false_iff.mpr (mt h.leaving asks.stays)
  constructor
  · rw [← h.states, ← h.closing hfits hthere]
  · rw [h.taken hfits, hthere]
    rfl

/-- A client that asks for too much is told so. -/
theorem Asks.refused {moment : Nanos} (asks : Asks client task moment)
    (word : d.minWorkers < Word.limit64) (few : r.snapshot.length < d.minWorkers) : ∃ client',
      serve d r client = ((some ⟨refusedPath, none⟩, client'), r) ∧
      client'.taken = client.taken ++ [(Message.errorResponse ⟨1,
        (ClusterError.insufficientWorkers r.snapshot.length d.minWorkers).message⟩).frame] := by
  have hfits := ClusterError.length_response_insufficientWorkers (Nat.lt_trans few word) word 1
  obtain ⟨heard, hread, keeps⟩ := asks.opens.read asks.sound
  obtain ⟨record, client', hserve, hreplies⟩ := serve_of_refused hread keeps few
  obtain ⟨rfl, htaken⟩ := hreplies.result asks hfits
  exact ⟨client', hserve, htaken⟩

/-- The task and the moment at which it is heard decide on a short reply, whoever the client is. -/
theorem serve_of_read {moment : Nanos} (word : d.minWorkers < Word.limit64)
    (values : task.values.length < Word.limit64)
    (finishes : d.minWorkers ≤ r.snapshot.length →
      (r.dispatch (roundFor d r moment task)).1.isSome) :
    ∃ before m r', Reply d r (before ++ [.responding, .closed]) m r' ∧ m.toBody.length ≤ 128 ∧
      ∀ client client', read client = (some (.ok task), client') →
        Network.Link.Keeps client client.coming client' → client'.now = moment →
        ∃ record client'', serve d r client = ((some record, client''), r') ∧
          Replies client before m (record, client'') := by
  by_cases hquorum : d.minWorkers ≤ r.snapshot.length
  · obtain ⟨o, hround⟩ := Option.isSome_iff_exists.mp (finishes hquorum)
    have hpartials := Nat.lt_of_le_of_lt (Registry.length_partials_le hround) values
    obtain ⟨m, hm, hshort, hkind⟩ := reply?_answer task hpartials
    refine ⟨[.awaitingTask, .computingBaseline, .checkingQuorum, .dispatching, .validating], m,
      (r.dispatch (roundFor d r moment task)).2, .answered hquorum hkind, hshort, ?_⟩
    rintro client client' hread keeps rfl
    exact serve_of_task hread keeps hquorum hround hm
  · have hfew := Nat.not_le.mp hquorum
    refine ⟨[.awaitingTask, .computingBaseline, .checkingQuorum], _, r, .refused hfew, ?_, ?_⟩
    · exact ClusterError.length_response_insufficientWorkers (Nat.lt_trans hfew word) word 1
    · intro client client' hread keeps _
      exact serve_of_refused hread keeps hfew

/-- Of clients that listen, each gets that reply: which of them there could be makes no
difference. -/
theorem serve_of_asks {moment : Nanos} (word : d.minWorkers < Word.limit64)
    (values : task.values.length < Word.limit64)
    (finishes : d.minWorkers ≤ r.snapshot.length →
      (r.dispatch (roundFor d r moment task)).1.isSome) :
    ∃ path m r', Reply d r path m r' ∧ ∀ client, Asks client task moment →
      ∃ client', serve d r client = ((some ⟨path, none⟩, client'), r') ∧
        client'.taken = client.taken ++ [m.frame] := by
  obtain ⟨before, m, r', hreply, hshort, hserve⟩ := serve_of_read word values finishes
  refine ⟨_, m, r', hreply, fun client asks => ?_⟩
  obtain ⟨heard, hread, keeps⟩ := asks.opens.read asks.sound
  have hmoment : heard.now = moment := by
    rw [← asks.moment, hread]
  obtain ⟨record, client', hclient, hreplies⟩ := hserve client heard hread keeps hmoment
  obtain ⟨rfl, htaken⟩ := hreplies.result asks hshort
  exact ⟨client', hclient, htaken⟩

/-- A fresh client that does not disappear listens. -/
theorem asks_fresh {setting : Nat} {peer : Peer} {coming : List Arrival} {now : Nanos}
    (room : 128 ≤ setting) (listens : ∀ a ∈ coming, a.event ≠ .hangUp)
    (opens : Opens (.fresh setting peer coming now) task) :
    Asks (.fresh setting peer coming now) task (read (.fresh setting peer coming now)).2.now := by
  refine ⟨Wire.Connection.sound_fresh setting, opens, ?_, ?_, rfl⟩
  · rintro (hgone | ⟨a, ha, he⟩)
    · cases hgone
    · exact listens a ha he
  · exact Nat.le_min.mpr ⟨room, by decide⟩

/-- A first frame is heard when its last byte arrives, whatever comes with that byte or after it. -/
theorem now_read {setting : Nat} {peer : Peer} {before after : List Arrival} {t now : Nanos}
    {body chunk extra : Wire.Bytes} (pieces : ∀ a ∈ before, ∃ piece, a.event = .bytes piece)
    (last : chunk ≠ []) (frame : Network.spoken before ++ chunk = Wire.Frame.wrap body)
    (fits : body.length ≤ Wire.Frame.limitOf setting) :
    (read (.fresh setting peer (before ++ ⟨t, .bytes (chunk ++ extra)⟩ :: after) now)).2.now =
      max (Network.latest now before) t := by
  let client : Link := .fresh setting peer (before ++ ⟨t, .bytes (chunk ++ extra)⟩ :: after) now
  have hread : (read client).2 = (client.recv none).2 := by
    unfold read
    split
    · rename_i hrecv
      rw [hrecv]
    · rename_i hrecv
      rw [hrecv]
  have hlimit := Wire.Frame.limitOf_le setting
  have hwhole : Wire.Frame.front client.limit
      (client.connection.stream ++ Network.spoken before ++ (chunk ++ extra)) =
        .whole body extra := by
    rw [← List.append_assoc, List.append_assoc client.connection.stream, frame]
    exact Wire.Frame.front_wrap fits hlimit extra
  change (read client).2.now = _
  rw [hread]
  exact Network.Link.now_hear before after (Wire.Connection.sound_fresh setting) rfl pieces
    (Network.Link.short_of_wrap hlimit fits last frame) hwhole

/-- The protocol of a session with a client that writes anything at all, ends its stream and
listens: it goes one of three ways, writes one frame exactly if a task comes first, and neither the
frame nor the way there depends on anything else that the client writes. -/
theorem serve_protocol {setting : Nat} {peer : Peer} {coming : List Arrival} {now : Nanos}
    (room : 128 ≤ setting) (word : d.minWorkers < Word.limit64)
    (ending : Network.ends coming = true) (listens : ∀ a ∈ coming, a.event ≠ .hangUp)
    (finishes : ∀ task, Opens (.fresh setting peer coming now) task →
      d.minWorkers ≤ r.snapshot.length → (r.dispatch
        (roundFor d r (read (.fresh setting peer coming now)).2.now task)).1.isSome) :
    ∃ record client' r',
      serve d r (.fresh setting peer coming now) = ((some record, client'), r') ∧
      ((∀ task, ¬Opens (.fresh setting peer coming now) task) →
        record.states = idlePath ∧ client'.taken = [] ∧ r' = r) ∧
      ∀ task, Opens (.fresh setting peer coming now) task → ∃ m : Message,
        client'.taken = [m.frame] ∧ record.closing = none ∧
        (r.snapshot.length < d.minWorkers →
          record.states = refusedPath ∧ r' = r ∧ ∃ text, m = .errorResponse ⟨1, text⟩) ∧
        (d.minWorkers ≤ r.snapshot.length → record.states = dispatchedPath ∧
          ((∃ response, m = .clientResponse response) ∨ ∃ text, m = .errorResponse ⟨3, text⟩)) ∧
        ∀ (peer' : Peer) (coming' : List Arrival) (now' : Nanos),
          (∀ a ∈ coming', a.event ≠ .hangUp) → Opens (.fresh setting peer' coming' now') task →
          (read (.fresh setting peer' coming' now')).2.now =
            (read (.fresh setting peer coming now)).2.now →
          ∃ other, serve d r (.fresh setting peer' coming' now') = ((some record, other), r') ∧
            other.taken = client'.taken := by
  have sound := Wire.Connection.sound_fresh setting
  by_cases hopens : ∃ task, Opens (.fresh setting peer coming now) task
  · obtain ⟨task, opens⟩ := hopens
    obtain ⟨path, m, r', hreply, hserve⟩ := serve_of_asks word
      (opens.length_values_lt sound) (finishes task opens)
    obtain ⟨client', hclient, htaken⟩ := hserve _ (asks_fresh room listens opens)
    refine ⟨_, client', r', hclient, fun hno => absurd opens (hno task), ?_⟩
    intro task' opens'
    obtain rfl := opens.unique sound opens'
    refine ⟨m, htaken, rfl, ?_, ?_, ?_⟩
    · intro few
      cases hreply with
      | refused => exact ⟨rfl, rfl, _, rfl⟩
      | answered enough => exact absurd few (Nat.not_lt.mpr enough)
    · intro enough
      cases hreply with
      | refused few => exact absurd few (Nat.not_lt.mpr enough)
      | answered _ h => exact ⟨rfl, h⟩
    · intro peer' coming' now' listens' opens' hmoment
      obtain ⟨other, hother, htaken'⟩ := hserve _ (hmoment ▸ asks_fresh room listens' opens')
      exact ⟨other, hother, htaken'.trans htaken.symm⟩
  · have hreads : Reads (.fresh setting peer coming now) _ := read_reads sound
    generalize hread : read (.fresh setting peer coming now) = heard at hreads
    cases hreads with
    | task opens => exact absurd ⟨_, opens⟩ hopens
    | other _ keeps =>
      refine ⟨_, _, _, serve_of_other hread, fun _ => ⟨rfl, keeps.taken, rfl⟩, ?_⟩
      intro task opens
      exact absurd ⟨task, opens⟩ hopens
    | waits hopen => exact absurd (hopen.symm.trans ending) (by decide)

/-- What a client sends that has a small task and, behind it, some bytes that are no message. -/
def rambling : List Arrival :=
  [⟨0, .bytes ((Message.taskRequest ⟨[1, 2, 4], 0⟩).frame ++ [1, 99])⟩, ⟨5, .finish⟩]

theorem opens_rambling : Opens (.fresh 1000 .silent rambling 0) ⟨[1, 2, 4], 0⟩ :=
  ⟨_, [1, 99], rfl, by decide, Message.ofBody_toBody_of_le (by decide)⟩

/-- A task that comes at once is heard at once, whatever is behind it. -/
theorem now_read_at_once (task : TaskRequest) (extra : Wire.Bytes) (after : List Arrival)
    (fits : (Message.taskRequest task).toBody.length ≤ 1000) : (read (.fresh 1000 .silent
      (⟨0, .bytes ((Message.taskRequest task).frame ++ extra)⟩ :: after) 0)).2.now = 0 := by
  change (read (.fresh 1000 .silent
    ([] ++ ⟨0, .bytes ((Message.taskRequest task).frame ++ extra)⟩ :: after) 0)).2.now =
      max (Network.latest 0 []) 0
  exact now_read nofun (Message.frame_ne_nil _) rfl fits

/-- With two workers there, one frame comes back, the same as without the bytes behind the task. -/
theorem serve_protocol_rambling : ∃ record client' other r', ∃ m : Message,
    serve ⟨2, none⟩ .addingAndMultiplying (.fresh 1000 .silent rambling 0) =
      ((some record, client'), r') ∧
    serve ⟨2, none⟩ .addingAndMultiplying (asking ⟨[1, 2, 4], 0⟩) = ((some record, other), r') ∧
    record.states = dispatchedPath ∧ client'.taken = [m.frame] ∧ other.taken = [m.frame] := by
  have hfinishes (task : TaskRequest) (opens : Opens (.fresh 1000 .silent rambling 0) task)
      (moment : Nanos) : (Registry.addingAndMultiplying.dispatch
        (roundFor ⟨2, none⟩ .addingAndMultiplying moment task)).1.isSome := by
    obtain rfl := opens_rambling.unique (Wire.Connection.sound_fresh 1000) opens
    obtain ⟨o, hround, _⟩ := Registry.addingAndMultiplying_manages.dispatch _
    exact Option.isSome_iff_exists.mpr ⟨o, hround⟩
  obtain ⟨record, client', r', hserve, _, htask⟩ := serve_protocol (d := ⟨2, none⟩)
    (by decide) (by decide) (by decide) (by decide)
    (fun task opens _ => hfinishes task opens _)
  obtain ⟨m, htaken, _, _, henough, hsame⟩ := htask _ opens_rambling
  obtain ⟨hstates, _⟩ := henough (by rw [Registry.snapshot_addingAndMultiplying]; decide)
  have hmoment := now_read_at_once ⟨[1, 2, 4], 0⟩ [] [] (by decide)
  rw [List.append_nil] at hmoment
  obtain ⟨other, hother, htaken'⟩ := hsame .silent _ 0 (by decide) (opens_asking (by decide))
    (hmoment.trans (now_read_at_once _ _ _ (by decide)).symm)
  exact ⟨record, client', other, r', m, hserve, hother, hstates, htaken, htaken'.trans htaken⟩

end Session

end SumCluster
