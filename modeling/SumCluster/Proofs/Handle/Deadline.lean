import SumCluster.Proofs.Handle.Lifetime
import SumCluster.Proofs.Handle.Service
import SumCluster.Proofs.Network.Moment

/-!
Deadlines of calls that queue for one connection. The deadline of a call counts from the moment at
which the call gets the connection, so it is compared with the time that the worker takes for this
call alone, however long the calls before it took. Main statement: a call is answered exactly if
neither it nor a call before it has missed its deadline; the first that misses it says so, and those
behind it are refused without being sent.
-/

namespace SumCluster

open Network (Arrival Link Peer latest spoken)
open Wire (Bytes Message SubtaskRequest SubtaskResult)

/-! ### Answers that take their time -/

namespace Network

/-- How long a far end takes to answer one frame: a result comes in pieces, the last of them after
the delay, and nothing else comes; without a delay, nothing ever comes. -/
inductive Answers (limit : Nat) : Option Nanos → List Arrival → Prop where
  | after {as : List Arrival} {r : SubtaskResult}
      (pieces : ∀ a ∈ as, ∃ chunk, a.event = .bytes chunk ∧ chunk ≠ [])
      (fits : (Message.subtaskResult r).toBody.length ≤ limit)
      (whole : spoken as = (Message.subtaskResult r).frame) : Answers limit (some (latest 0 as)) as
  | never : Answers limit none []

/-- An answer within the deadline is told in time. -/
theorem Answers.tells {limit : Nat} {delay : Nanos} {deadline : Option Nanos} {as : List Arrival}
    (h : Answers limit (some delay) as) (intime : ∀ t, deadline = some t → delay ≤ t) :
    ∃ v, Tells limit deadline v as := by
  cases h with
  | @after _ r pieces fits whole =>
    refine ⟨r.sum, pieces, ⟨r.workerId, fits, whole⟩, fun t ht a ha => ?_⟩
    by_contra hlate
    exact absurd (lt_latest_iff.mpr (.inr ⟨a, ha, Nat.not_le.mp hlate⟩))
      (Nat.not_lt.mpr (intime t ht))

/-- With an answer that takes longer, the deadline passes. -/
theorem Link.Ready.expires {l : Link} (h : l.Ready) {frame : Bytes} {delay : Option Nanos}
    {t : Nanos} (answers : Answers l.limit delay (l.peer.react (l.taken ++ [frame])))
    (late : ∀ d, delay = some d → t < d) :
    ∃ l', (l.hand frame).recv (some (l.now + t)) = (.expired, l') := by
  have hcoming := h.coming_hand frame
  rw [recv, hcoming]
  generalize l.peer.react (l.taken ++ [frame]) = as at answers
  cases answers with
  | after pieces fits whole =>
    refine hear_of_late (l := l.hand frame) h.sound h.opened fits ?_ ?_ ?_
    · intro a ha
      obtain ⟨b, hb, rfl⟩ := List.mem_map.mp ha
      exact pieces b hb
    · change l.connection.stream ++ _ = _
      rw [h.unread, spoken_map_due (l.now + ·)]
      exact whole
    · obtain ⟨a, ha, hlate⟩ :=
        (lt_latest_iff.mp (late _ rfl)).resolve_left (Nat.not_lt_zero t)
      exact ⟨_, List.mem_map_of_mem ha, Nat.add_lt_add_left hlate l.now⟩
  | never =>
    refine hear_of_silent (l := l.hand frame) h.sound h.opened ?_ _
    change Wire.Frame.front l.limit l.connection.stream = _
    rw [h.unread]
    rfl

end Network

namespace Handle

variable {h : Handle}

/-! ### One turn -/

/-- A call in the queue of a connection: when it came, what it asks for, how long it may take once
it has the connection, and how long the worker takes to answer it. Without a delay the worker never
answers. -/
structure Turn where
  start : Nanos
  request : SubtaskRequest
  limit : Option Nanos
  delay : Option Nanos
  deriving DecidableEq, Repr

namespace Turn

/-- The call. -/
def use (t : Turn) : Use := .call t.start t.request t.limit

/-- The answer comes before the deadline, if there is one. -/
def Prompt (t : Turn) : Prop := ∀ limit ∈ t.limit, ∃ d ∈ t.delay, d < limit

instance (t : Turn) : Decidable t.Prompt :=
  inferInstanceAs (Decidable (∀ limit ∈ t.limit, ∃ d ∈ t.delay, d < limit))

/-- The wait comes to an end, and never with answer and deadline at the same moment. -/
structure Decided (t : Turn) : Prop where
  ends : t.limit = none → t.delay ≠ none
  sharp : ∀ limit ∈ t.limit, limit ∉ t.delay

variable {t : Turn}

/-- Who misses the deadline takes longer than it. -/
theorem Decided.late (hd : t.Decided) (hp : ¬t.Prompt) :
    ∃ limit, t.limit = some limit ∧ ∀ d, t.delay = some d → limit < d := by
  unfold Prompt at hp
  push Not at hp
  obtain ⟨limit, hlimit, hdelay⟩ := hp
  refine ⟨limit, hlimit, fun d hd' => Nat.lt_of_le_of_ne (hdelay d hd') ?_⟩
  rintro rfl
  exact hd.sharp _ hlimit hd'

theorem Decided.delay (hd : t.Decided) (hp : t.Prompt) :
    ∃ d, t.delay = some d ∧ ∀ limit, t.limit = some limit → d ≤ limit := by
  cases hdelay : t.delay with
  | some d =>
    refine ⟨d, rfl, fun limit hlimit => ?_⟩
    obtain ⟨d', hd', hlt⟩ := hp limit hlimit
    obtain rfl := Option.some.inj (hdelay.symm.trans hd')
    exact Nat.le_of_lt hlt
  | none =>
    cases hlimit : t.limit with
    | none => exact absurd hdelay (hd.ends hlimit)
    | some limit =>
      obtain ⟨d, hd', -⟩ := hp limit hlimit
      exact absurd (hdelay.symm.trans hd') nofun

end Turn

/-! ### All turns -/

/-- The calls of a queue fit, and the worker answers them, in the order in which they are sent, as
the queue says. -/
structure Queue (h : Handle) (turns : List Turn) : Prop where
  fits : ∀ t ∈ turns, (Message.subtaskRequest t.request).toBody.length ≤ h.link.limit
  answers : ∀ before t, before ++ [t] <+: turns → Network.Answers h.link.limit t.delay
    (h.link.peer.react (h.link.taken ++ framesOf ((before ++ [t]).map (·.request))))
  decided : ∀ t ∈ turns, t.Decided

variable {t : Turn} {turns : List Turn}

/-- The first call of a queue is sent, and this is what the worker sets off. -/
theorem Queue.head (hq : h.Queue (t :: turns)) :
    (Message.subtaskRequest t.request).toBody.length ≤ h.link.limit ∧
      Network.Answers h.link.limit t.delay
        (h.link.peer.react (h.link.taken ++ framesOf [t.request])) ∧ t.Decided :=
  ⟨hq.fits t List.mem_cons_self, hq.answers [] t ⟨turns, rfl⟩, hq.decided t List.mem_cons_self⟩

/-- What is left of a queue when its first call was answered. -/
theorem Queue.tail (hq : h.Queue (t :: turns)) {h' : Handle} (answered : h.Answered t.request h') :
    h'.Queue turns := by
  refine ⟨fun s hs => ?_, fun before s hs => ?_, fun s hs => ?_⟩
  · rw [answered.limit]
    exact hq.fits s (List.mem_cons_of_mem t hs)
  · have hnext := hq.answers (t :: before) s ((List.prefix_cons_inj t).mpr hs)
    have hframes : h'.link.taken ++ framesOf ((before ++ [s]).map (·.request)) =
        h.link.taken ++ framesOf (((t :: before) ++ [s]).map (·.request)) := by
      rw [answered.taken, List.append_assoc]
      rfl
    rw [answered.limit, answered.peer, hframes]
    exact hnext
  · exact hq.decided s (List.mem_cons_of_mem t hs)

/-- A call whose answer comes before its deadline is answered, and the queue goes on. -/
theorem Queue.call_of_prompt (hq : h.Queue (t :: turns)) (hu : h.Usable) (hready : h.link.Ready)
    (hp : t.Prompt) : ∃ r h', h.call t.start t.request t.limit = (some (.ok r), h') ∧
      h'.Usable ∧ h'.link.Ready ∧ h'.Queue turns := by
  obtain ⟨fits, answers, decided⟩ := hq.head
  obtain ⟨d, hdelay, hintime⟩ := decided.delay hp
  rw [hdelay] at answers
  obtain ⟨v, tells⟩ := answers.tells hintime
  obtain ⟨workerId, h', hcall, answered⟩ := call_of_tells hu hready fits tells t.start
  exact ⟨⟨v, workerId⟩, h', hcall, answered.usable, answered.ready, hq.tail answered⟩

/-- A call whose answer comes after its deadline says so, and the handle is dead. -/
theorem Queue.call_of_late (hq : h.Queue (t :: turns)) (hu : h.Usable) (hready : h.link.Ready)
    (hp : ¬t.Prompt) : ∃ limit h', t.limit = some limit ∧
      h.call t.start t.request t.limit = (some (.error (.noReply limit)), h') ∧
      h'.held = false ∧ h'.alive = false := by
  obtain ⟨fits, answers, decided⟩ := hq.head
  obtain ⟨limit, hlimit, late⟩ := decided.late hp
  obtain ⟨link, hrecv⟩ := (hready.advance t.start).expires answers late
  refine ⟨limit, { h with link := link }.kill, hlimit, ?_, hu.2, rfl⟩
  rw [call_of_ready hu hready fits, hlimit, Option.map_some, hrecv]
  rfl

/-- A dead handle stays dead and refuses. -/
theorem refuses_after (hheld : h.held = false) (hdead : h.alive = false) (turns : List Turn) :
    (h.after (turns.map Turn.use)).held = false ∧ (h.after (turns.map Turn.use)).alive = false := by
  induction turns generalizing h with
  | nil => exact ⟨hheld, hdead⟩
  | cons t turns ih =>
    rw [List.map_cons, after_cons, Turn.use, use, call_of_dead hheld hdead]
    exact ih hheld hdead

/-- What some calls of a queue leave: a handle that is ready for the rest as long as none of them
has missed its deadline, and a dead one otherwise. -/
theorem Queue.after (before : List Turn) (hu : h.Usable) (hready : h.link.Ready)
    (hq : h.Queue (before ++ turns)) :
    let h' := h.after (before.map Turn.use)
    ((∀ s ∈ before, s.Prompt) → h'.Usable ∧ h'.link.Ready ∧ h'.Queue turns) ∧
      ((∃ s ∈ before, ¬s.Prompt) → h'.held = false ∧ h'.alive = false) := by
  -- Every answered call leaves another handle, so the queue is followed from any that is ready.
  induction before generalizing h with
  | nil => exact ⟨fun _ => ⟨hu, hready, hq⟩, fun ⟨_, hs, _⟩ => absurd hs List.not_mem_nil⟩
  | cons t before ih =>
    rw [List.map_cons, after_cons, Turn.use, use]
    by_cases hp : t.Prompt
    · obtain ⟨r, h', hcall, hu', hready', hq'⟩ := hq.call_of_prompt hu hready hp
      obtain ⟨hprompt, hlate⟩ := ih hu' hready' hq'
      rw [hcall]
      refine ⟨fun hall => hprompt fun s hs => hall s (List.mem_cons_of_mem t hs), fun hsome => ?_⟩
      exact hlate (((List.exists_mem_cons_iff ..).mp hsome).resolve_left (not_not.mpr hp))
    · obtain ⟨limit, h', -, hcall, hheld, hdead⟩ := hq.call_of_late hu hready hp
      rw [hcall]
      exact ⟨fun hall => absurd (hall t List.mem_cons_self) hp,
        fun _ => refuses_after hheld hdead before⟩

/-- Calls queue for the connection of a handle that is ready, and the worker takes some time to
answer each of them. A call is answered exactly if neither it nor any call before it takes as long
as its own deadline, whenever the calls came and however long the others took. The first one that
does fails for that reason; all behind it are refused, and nothing of them is sent. As long as the
handle is trusted, it is ready for the next queue. -/
theorem deadline_bounds_exchange (hu : h.Usable) (hready : h.link.Ready) (hq : h.Queue turns)
    {before : List Turn} (hturn : before ++ [t] <+: turns) :
    let h' := h.after (before.map Turn.use)
    let call := h'.call t.start t.request t.limit
    ((∃ r, call.1 = some (.ok r)) ↔ ∀ s ∈ before ++ [t], s.Prompt) ∧
    ((∀ s ∈ before, s.Prompt) → ¬t.Prompt → ∃ limit, t.limit = some limit ∧
      call.1 = some (.error (.noReply limit)) ∧
      (Unreachable.noReply limit).toError h.workerId = .workerUnreachable h.workerId
        ("no reply within " ++ Text.natText (limit / Nanos.milli) ++ "ms")) ∧
    ((∃ s ∈ before, ¬s.Prompt) → call.1 = some (.error .abandoned) ∧
      call.2.link.taken = h'.link.taken ∧
      Unreachable.abandoned.toError h.workerId =
        .workerUnreachable h.workerId "connection already abandoned") ∧
    (h'.alive = true → h'.Usable ∧ h'.link.Ready) := by
  intro h' call
  obtain ⟨more, rfl⟩ := hturn
  rw [List.append_assoc] at hq
  obtain ⟨hprompt, hlate⟩ := hq.after before hu hready
  have refused (hsome : ∃ s ∈ before, ¬s.Prompt) :
      call = (some (.error .abandoned), { h' with link := h'.link.advance t.start }) :=
    call_of_dead (hlate hsome).1 (hlate hsome).2 t.start
  refine ⟨⟨?_, fun hall => ?_⟩, fun hall hp => ?_, fun hsome => ?_, fun halive => ?_⟩
  · rintro ⟨r, hr⟩
    have hall : ∀ s ∈ before, s.Prompt := by
      by_contra hnot
      push Not at hnot
      rw [refused hnot] at hr
      cases hr
    obtain ⟨hu', hready', hq'⟩ := hprompt hall
    refine List.forall_mem_append.mpr ⟨hall, List.forall_mem_singleton.mpr ?_⟩
    by_contra hp
    obtain ⟨limit, _, _, hcall, _⟩ := hq'.call_of_late hu' hready' hp
    exact absurd ((congrArg Prod.fst hcall).symm.trans hr) nofun
  · obtain ⟨hbefore, ht⟩ := List.forall_mem_append.mp hall
    obtain ⟨hu', hready', hq'⟩ := hprompt hbefore
    obtain ⟨r, _, hcall, _⟩ :=
      hq'.call_of_prompt hu' hready' (ht t (List.mem_singleton.mpr rfl))
    exact ⟨r, congrArg Prod.fst hcall⟩
  · obtain ⟨hu', hready', hq'⟩ := hprompt hall
    obtain ⟨limit, _, hlimit, hcall, _⟩ := hq'.call_of_late hu' hready' hp
    exact ⟨limit, hlimit, congrArg Prod.fst hcall, rfl⟩
  · rw [refused hsome]
    exact ⟨rfl, rfl, rfl⟩
  · have hall : ∀ s ∈ before, s.Prompt := by
      by_contra hnot
      push Not at hnot
      exact absurd (halive.symm.trans (hlate hnot).2) nofun
    exact ⟨(hprompt hall).1, (hprompt hall).2.1⟩

end Handle

/-- A worker that takes its time: so much for each frame, or for ever. -/
def Network.Peer.pausing (delays : List (Option Nanos)) : Peer where
  react frames := match delays[frames.length - 1]? with
    | some (some d) =>
      [⟨d, .bytes (Message.subtaskResult ⟨Int32.ofNat frames.length, "w"⟩).frame⟩]
    | _ => []

theorem Network.answers_pausing {limit : Nat} (fits : 16 ≤ limit) {delays : List (Option Nanos)}
    {frames : List Bytes} {delay : Option Nanos}
    (hdelay : delays[frames.length - 1]? = some delay) :
    Answers limit delay ((Peer.pausing delays).react frames) := by
  rw [Peer.pausing]
  simp only [hdelay]
  cases delay with
  | none => exact .never
  | some d =>
    have hlatest : latest 0
        [⟨d, .bytes (Message.subtaskResult ⟨Int32.ofNat frames.length, "w"⟩).frame⟩] = d :=
      Nat.zero_max d
    simp only
    rw [← hlatest]
    have hlength := Message.length_subtaskResult_le ⟨Int32.ofNat frames.length, "w"⟩
    refine .after ?_ (Nat.le_trans hlength fits) (List.append_nil _)
    intro a ha
    obtain rfl := List.mem_singleton.mp ha
    exact ⟨_, rfl, Message.frame_ne_nil _⟩

namespace Handle

/-- Five calls that come at once. The second has no deadline, and holds the others up for long; the
fourth is never answered. -/
def fiveTurns : List Turn :=
  [⟨0, ⟨[1], 0⟩, some 50, some 20⟩, ⟨0, ⟨[2], 0⟩, none, some 500⟩, ⟨0, ⟨[3], 0⟩, some 50, some 30⟩,
    ⟨0, ⟨[4], 0⟩, some 50, none⟩, ⟨0, ⟨[5], 0⟩, none, some 1⟩]

/-- A handle on a worker that takes its time for five calls. -/
def pausing : Handle := fresh "w" (.fresh 100 (.pausing (fiveTurns.map (·.delay))) [] 0)

theorem queue_fiveTurns : pausing.Queue fiveTurns := by
  refine ⟨by decide +kernel, fun before t hturn => ?_, fun t ht => ?_⟩
  · refine Network.answers_pausing (by decide) ?_
    obtain ⟨more, hmore⟩ := hturn
    rw [← hmore]
    simp [pausing, fresh, Link.fresh, framesOf]
  · simp only [fiveTurns, List.mem_cons, List.not_mem_nil, or_false] at ht
    rcases ht with rfl | rfl | rfl | rfl | rfl <;> exact ⟨by simp, by simp⟩

theorem deadline_bounds_exchange_pausing :
    (∃ r, ((pausing.after ((fiveTurns.take 2).map Turn.use)).call 0 ⟨[3], 0⟩ (some 50)).1 =
      some (.ok r)) ∧
    ((pausing.after ((fiveTurns.take 3).map Turn.use)).call 0 ⟨[4], 0⟩ (some 50)).1 =
      some (.error (.noReply 50)) ∧
    ((pausing.after ((fiveTurns.take 4).map Turn.use)).call 0 ⟨[5], 0⟩ none).1 =
      some (.error .abandoned) := by
  have hu : pausing.Usable := ⟨rfl, rfl⟩
  have hready : pausing.link.Ready := ⟨Wire.Connection.sound_fresh 100, rfl, rfl, rfl, rfl⟩
  have htake (n : Nat) (t : Turn) (ht : fiveTurns.take n ++ [t] = fiveTurns.take (n + 1)) :
      fiveTurns.take n ++ [t] <+: fiveTurns := ht ▸ List.take_prefix (n + 1) fiveTurns
  obtain ⟨third, -⟩ :=
    deadline_bounds_exchange hu hready queue_fiveTurns (htake 2 ⟨0, ⟨[3], 0⟩, some 50, some 30⟩ rfl)
  obtain ⟨-, fourth, -⟩ :=
    deadline_bounds_exchange hu hready queue_fiveTurns (htake 3 ⟨0, ⟨[4], 0⟩, some 50, none⟩ rfl)
  obtain ⟨-, -, fifth, -⟩ :=
    deadline_bounds_exchange hu hready queue_fiveTurns (htake 4 ⟨0, ⟨[5], 0⟩, none, some 1⟩ rfl)
  refine ⟨third.mpr (by decide), ?_, (fifth (by decide)).1⟩
  obtain ⟨limit, hlimit, hcall, -⟩ := fourth (by decide) (by decide)
  obtain rfl := Option.some.inj hlimit
  exact hcall

/-- A call without a deadline may still fail: the worker answers at once, but its result is too long
for a frame of the connection. -/
theorem long_result_fails_without_deadline :
    let h := fresh "adder" (.fresh 9 (Network.Script.worker "adder" []) [] 0)
    let t : Turn := ⟨0, ⟨[1000], 0⟩, none, some 0⟩
    h.Usable ∧ h.link.Ready ∧ t.Prompt ∧ t.Decided ∧
    h.link.peer.react (framesOf [t.request]) =
      [⟨0, .bytes (Message.subtaskResult ⟨1000, "adder"⟩).frame⟩] ∧
    (h.call t.start t.request t.limit).1 = some (.error (.broken .frameTooBig)) := by
  refine ⟨⟨rfl, rfl⟩, ⟨Wire.Connection.sound_fresh 9, rfl, rfl, rfl, rfl⟩, by decide,
    ⟨by simp, by simp⟩, by decide +kernel, by decide +kernel⟩

end Handle

end SumCluster
