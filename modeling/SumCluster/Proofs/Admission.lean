import SumCluster.Leader
import SumCluster.Proofs.Handle.Backlog
import SumCluster.Proofs.Registry.Lifetime
import SumCluster.Proofs.Worker

/-!
Who is admitted. A connection to the registration port is decided by what comes first on it: a frame
with a handshake whose id is not blank adds a handle, and anything else leaves the registry as it
was. Main statement: that is so for every stream in every piecing; the handle has the id to the
letter, and what stands behind the handshake is what its calls read first. A worker that sends its
handshake and nothing else is at rest on its handle: the next subtask is the first thing it has to
do.
-/

namespace SumCluster

open Network (Arrival Link Peer spoken)
open Network.Link (Keeps)
open Text (isBlank isBlankText)
open Wire (Bytes Message SubtaskRequest SubtaskResult)

namespace Admission

variable {worker : Link} {id : String} {rest : Bytes}

/-! ### The first frame -/

theorem isBlankText_eq_false_iff {cs : List Char} :
    isBlankText cs = false ↔ ∃ c ∈ cs, isBlank c = false := by
  simp [isBlankText]

/-- What comes first on a connection is a handshake whose id is not blank, and then there is a
rest. -/
def Introduces (worker : Link) (id : String) (rest : Bytes) : Prop :=
  worker.Begins (.handshake ⟨id⟩) rest ∧ ∃ c ∈ id.toList, isBlank c = false

theorem judge_handshake (named : isBlankText id.toList = false) :
    judge (.ok (some (.handshake ⟨id⟩))) = .ok id := by
  simp only [judge, Message.asHandshake, named]
  rfl

theorem judge_ok {outcome : Except Wire.ProtocolError (Option Message)}
    (h : judge outcome = .ok id) :
    outcome = .ok (some (.handshake ⟨id⟩)) ∧ isBlankText id.toList = false := by
  rcases outcome with e | _ | m
  · cases h
  · cases h
  · cases m with
    | handshake s =>
      simp only [judge, Message.asHandshake] at h
      split at h
      · cases h
      · rename_i hnamed
        obtain rfl := Except.ok.inj h
        exact ⟨rfl, Bool.eq_false_iff.mpr hnamed⟩
    | _ => cases h

/-- All that waiting for the handshake can come to. -/
inductive Reads (worker : Link) : Option (Except Refusal String) × Link → Prop where
  | admitted {id : String} {rest : Bytes} {link : Link} (introduces : Introduces worker id rest)
      (keeps : Keeps worker worker.coming link) (stream : link.stream = rest)
      (sound : link.connection.Sound) : Reads worker (some (.ok id), link)
  | refused {why : Refusal} {link : Link} (introduces : ∀ id rest, ¬Introduces worker id rest) :
      Reads worker (some (.error why), link)
  | waits {link : Link} (introduces : ∀ id rest, ¬Introduces worker id rest) :
      Reads worker (none, link)

theorem read_reads (hl : worker.connection.Sound) : Reads worker (read worker) := by
  have hfirst := Link.recv_first hl
  unfold read
  generalize worker.recv none = result at hfirst ⊢
  cases hfirst with
  | @message m rest link hbegins keeps hstream hsound =>
    change Reads worker (some (judge (.ok (some m))), link)
    cases hj : judge (.ok (some m)) with
    | ok id =>
      obtain ⟨hm, hnamed⟩ := judge_ok hj
      obtain rfl := Option.some.inj (Except.ok.inj hm)
      exact .admitted ⟨hbegins, isBlankText_eq_false_iff.mp hnamed⟩ keeps hstream hsound
    | error why =>
      refine .refused fun id rest' hi => ?_
      obtain ⟨rfl, _⟩ := hi.1.unique hl hbegins
      cases (judge_handshake (isBlankText_eq_false_iff.mpr hi.2)).symm.trans hj
  | @other outcome link hno hmessage keeps =>
    change Reads worker (some (judge outcome), link)
    cases hj : judge outcome with
    | ok id => exact absurd (judge_ok hj).1 (hmessage _)
    | error why => exact .refused fun id rest hi => hno _ _ hi.1
  | waits hno _ keeps => exact .waits fun id rest hi => hno _ _ hi.1

theorem Introduces.unique (hl : worker.connection.Sound) {id' : String} {rest' : Bytes}
    (h : Introduces worker id rest) (h' : Introduces worker id' rest') :
    id = id' ∧ rest = rest' := by
  obtain ⟨hm, hrest⟩ := h.1.unique hl h'.1
  cases hm
  exact ⟨rfl, hrest⟩

/-- A handshake that comes first is heard, and what stands behind it is left to be read. -/
theorem Introduces.read (hl : worker.connection.Sound) (h : Introduces worker id rest) :
    ∃ link, Admission.read worker = (some (.ok id), link) ∧ Keeps worker worker.coming link ∧
      link.stream = rest ∧ link.connection.Sound := by
  have hreads := read_reads hl
  generalize Admission.read worker = result at hreads ⊢
  cases hreads with
  | admitted hintroduces keeps hstream hsound =>
    obtain ⟨rfl, rfl⟩ := h.unique hl hintroduces
    exact ⟨_, rfl, keeps, hstream, hsound⟩
  | refused hno => exact absurd h (hno id rest)
  | waits hno => exact absurd h (hno id rest)

theorem Introduces.register (hl : worker.connection.Sound) (h : Introduces worker id rest)
    (r : Registry) : ∃ link, Admission.register r worker =
        (some (.ok (r.register id link).1), (r.register id link).2, link) ∧
      Keeps worker worker.coming link ∧ link.stream = rest ∧ link.connection.Sound := by
  obtain ⟨link, hread, hlink⟩ := h.read hl
  exact ⟨link, by rw [Admission.register, hread], hlink⟩

/-- Whatever else comes first changes nothing in the registry. -/
theorem registry_register_of_not (hl : worker.connection.Sound)
    (hno : ∀ id rest, ¬Introduces worker id rest) (r : Registry) :
    (Admission.register r worker).2.1 = r := by
  have hreads := read_reads hl
  rw [Admission.register]
  generalize Admission.read worker = result at hreads ⊢
  cases hreads with
  | admitted hintroduces => exact absurd hintroduces (hno _ _)
  | refused => rfl
  | waits => rfl

end Admission

/-- A registration is always a change. -/
theorem Registry.register_ne (r : Registry) (id : String) (link : Link) :
    (r.register id link).2 ≠ r := by
  intro heq
  have hcount := Registry.length_handles_register r id link
  rw [heq] at hcount
  exact absurd hcount (Nat.ne_of_lt (Nat.lt_succ_self _))

namespace Admission

/-- Whatever a fresh connection brings, in whatever pieces and with whatever end, the registry changes
exactly if what comes first is a frame with a handshake whose id is not blank. Then the change is
the registration of a new live handle under that very id; the bytes behind the handshake are what is
unread on it, and a call puts what its subtask sets off behind them. So if they begin with results
and the worker stays, the first calls are answered with these. -/
theorem register_exact (r : Registry) (setting : Nat) (peer : Peer) (coming : List Arrival)
    (now : Nanos) :
    let worker := Link.fresh setting peer coming now
    ((register r worker).2.1 ≠ r ↔ ∃ id rest, Introduces worker id rest) ∧
    (∀ id rest, Introduces worker id rest → ∃ link,
      register r worker = (some (.ok (r.register id link).1), (r.register id link).2, link) ∧
      (r.register id link).2.handles[(r.register id link).1]? = some ⟨id, true, false, link⟩ ∧
      link.stream = rest ∧ link.taken = [] ∧ link.limit = worker.limit ∧
      (∀ request : SubtaskRequest, ((Handle.fresh id link).sent request).stream = rest ++
        if link.closing then [] else spoken (peer.react [(Message.subtaskRequest request).frame])) ∧
      ∀ (results : List SubtaskResult) (more : Bytes) (calls : List (Nanos × SubtaskRequest)),
        rest = (results.map fun result => (Message.subtaskResult result).frame).flatten ++ more →
        (∀ result ∈ results, (Message.subtaskResult result).toBody.length ≤ worker.limit) →
        (∀ a ∈ coming, a.event ≠ .hangUp) → peer.Stays → calls.length = results.length →
        (∀ c ∈ calls, (Message.subtaskRequest c.2).toBody.length ≤ worker.limit) →
        (Handle.fresh id link).replies (calls.map Handle.Use.ofRequest) = results.map .ok) ∧
    ((∀ id rest, ¬Introduces worker id rest) → (register r worker).2.1 = r) := by
  intro worker
  have hl : worker.connection.Sound := Wire.Connection.sound_fresh setting
  refine ⟨⟨fun hne => ?_, fun ⟨id, rest, h⟩ => ?_⟩, fun id rest h => ?_, fun hno => ?_⟩
  · by_contra hnone
    exact hne (registry_register_of_not hl (fun id rest h => hnone ⟨id, rest, h⟩) r)
  · obtain ⟨link, hregister, _⟩ := h.register hl r
    rw [hregister]
    exact Registry.register_ne r id link
  · obtain ⟨link, hregister, keeps, hstream, hsound⟩ := h.register hl r
    refine ⟨link, hregister, Registry.getElem?_register r id link, hstream, keeps.taken,
      keeps.limit, fun request => ?_, fun results more calls hrest fits stays hpeer hlength
      hcalls => ?_⟩
    · rw [Handle.stream_sent]
      change link.stream ++ (if link.closing = true then [] else
        spoken (link.peer.react (link.taken ++ _))) = _
      rw [hstream, keeps.peer, keeps.taken]
      rfl
    · have hstays : ¬link.Leaving := by
        intro hleaving
        rcases keeps.leaving hleaving with hgone | ⟨a, ha, he⟩
        · cases hgone
        · exact stays a ha he
      have hstocked : (Handle.fresh id link).Stocked results :=
        ⟨⟨rfl, rfl⟩, hsound, hstays, keeps.peer.symm ▸ hpeer,
          fun r hr => keeps.limit.symm ▸ fits r hr, more, hstream.trans hrest⟩
      exact hstocked.replies hlength fun c hc => keeps.limit.symm ▸ hcalls c hc
  · exact registry_register_of_not hl hno r

/-- A worker that sends its handshake in two pieces, and with the second one the result of a subtask
that it was never sent. -/
def hasty : List Arrival :=
  let bytes := (Message.handshake ⟨" w "⟩).frame ++ (Message.subtaskResult ⟨7, "w"⟩).frame
  [⟨3, .bytes (bytes.take 6)⟩, ⟨5, .bytes (bytes.drop 6)⟩]

/-- It is registered under its id with the blanks around it, and the result answers the first
call. -/
theorem register_exact_hasty : ∃ link,
    register .empty (.fresh 100 .silent hasty 0) =
      (some (.ok 0), ⟨[⟨" w ", true, false, link⟩], [0]⟩, link) ∧
    link.stream = (Message.subtaskResult ⟨7, "w"⟩).frame ∧
    (Handle.fresh " w " link).replies [.call 9 ⟨[1, 2], 0⟩ none] = [.ok ⟨7, "w"⟩] := by
  have hintroduces : Introduces (.fresh 100 .silent hasty 0) " w "
      (Message.subtaskResult ⟨7, "w"⟩).frame := by
    refine ⟨Link.begins_of_stream (Wire.Connection.sound_fresh 100) rfl (by decide), ?_⟩
    exact ⟨'w', by decide, by decide⟩
  obtain ⟨-, hadmits, -⟩ := register_exact .empty 100 .silent hasty 0
  obtain ⟨link, hregister, -, hstream, -, -, -, hanswers⟩ := hadmits _ _ hintroduces
  refine ⟨link, hregister, hstream, ?_⟩
  exact hanswers [⟨7, "w"⟩] [] [(9, ⟨[1, 2], 0⟩)] (by simp) (by decide) (by decide) nofun rfl
    (by decide)

/-! ### Workers that only greet -/

variable {workerId : String} {mode : ComputeMode}

/-- The connection of a worker that has just connected and says its handshake. -/
structure Greets (workerId : String) (mode : ComputeMode) (worker : Link) : Prop where
  fresh : ∃ setting coming now, worker = Link.fresh setting (Worker.peer workerId mode) coming now
  pieces : ∀ a ∈ worker.coming, ∃ chunk, a.event = .bytes chunk ∧ chunk ≠ []
  greeting : spoken worker.coming = (Worker.handshake workerId).frame
  fits : (Worker.handshake workerId).toBody.length ≤ worker.limit

theorem Greets.sound {worker : Link} (h : Greets workerId mode worker) :
    worker.connection.Sound := by
  obtain ⟨setting, coming, now, rfl⟩ := h.fresh
  exact Wire.Connection.sound_fresh setting

/-- The handshake comes first, and nothing stands behind it. -/
theorem Greets.introduces {worker : Link} (h : Greets workerId mode worker)
    (named : isBlankText workerId.toList = false) : Introduces worker workerId [] := by
  refine ⟨Link.begins_of_stream h.sound ?_ h.fits, isBlankText_eq_false_iff.mp named⟩
  have hgreeting := h.greeting
  obtain ⟨setting, coming, now, rfl⟩ := h.fresh
  rw [List.append_nil]
  exact hgreeting

/-- A worker that says its handshake is registered, and its handle is at rest on it. -/
theorem Greets.register {worker : Link} (h : Greets workerId mode worker)
    (named : isBlankText workerId.toList = false) (r : Registry) : ∃ link,
    Admission.register r worker =
      (some (.ok (r.register workerId link).1), (r.register workerId link).2, link) ∧
        (Handle.fresh workerId link).Employs mode ∧ link.limit = worker.limit := by
  obtain ⟨link, hregister, keeps, hstream, hsound⟩ := (h.introduces named).register h.sound r
  have hpieces := h.pieces
  obtain ⟨setting, coming, now, rfl⟩ := h.fresh
  refine ⟨link, hregister, ⟨⟨rfl, rfl⟩, ?_, keeps.peer, [], keeps.taken, nofun⟩, keeps.limit⟩
  exact keeps.ready hpieces rfl rfl hsound hstream

end Admission

end SumCluster
