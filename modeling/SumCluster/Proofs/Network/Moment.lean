import SumCluster.Proofs.Network.Listening

/-!
When a frame is heard. Waiting goes on while no whole frame stands at the front of the stream, and
ends with the arrival that completes one; so the moment does not depend on what arrives with the
last byte of the frame or after it. A frame of which some piece comes after the deadline is not
heard in time.
-/

namespace SumCluster.Network

open Wire

/-- The latest of some moments and those of some arrivals. -/
def latest (now : Nanos) (as : List Arrival) : Nanos := as.foldl (fun t a => max t a.due) now

theorem lt_latest_iff {t now : Nanos} {as : List Arrival} :
    t < latest now as ↔ t < now ∨ ∃ a ∈ as, t < a.due := by
  induction as generalizing now with
  | nil => simp [latest]
  | cons a as ih =>
    have hcons : latest now (a :: as) = latest (max now a.due) as := rfl
    rw [hcons, ih, lt_max_iff, List.exists_mem_cons_iff, or_assoc]

namespace Link

variable {l : Link} {body rest : Bytes}

/-- The bytes before the end of a frame are no whole frame. -/
theorem short_of_wrap {limit : Nat} (hl : limit ≤ Frame.longest) (hbody : body.length ≤ limit)
    {bs chunk : Bytes} (hchunk : chunk ≠ []) (h : bs ++ chunk = Frame.wrap body) :
    Frame.front limit bs = .short := by
  have hwhole := Frame.front_wrap hbody hl []
  rw [List.append_nil, ← h] at hwhole
  cases hf : Frame.front limit bs with
  | whole body' rest' =>
    have happend := (Frame.front_append_whole hl hf chunk).symm.trans hwhole
    exact absurd (List.append_eq_nil_iff.mp (Frame.Front.whole.inj happend).2).2 hchunk
  | tooLong => exact absurd ((Frame.front_append_tooLong hf chunk).symm.trans hwhole) nofun
  | short => rfl

/-- Nothing whole has come: waiting goes on with the next arrival. -/
theorem hear_cons_of_short (hl : l.connection.Sound) (hopen : l.connection.closed = false)
    (hshort : Frame.front l.limit l.connection.stream = .short) (a : Arrival)
    (as : List Arrival) : ∃ c, Connection.Stays l.connection c ∧ hear none l (a :: as) =
      hear none (({ l with connection := c }.advance a.due).deliver a.event) as := by
  obtain ⟨c, hrecv, stays⟩ := hl.recv.of_short hshort hopen
  exact ⟨c, stays, by rw [hear, hrecv]⟩

/-- A whole frame is there: waiting ends at once. -/
theorem now_hear_of_whole (hl : l.connection.Sound)
    (hwhole : Frame.front l.limit l.connection.stream = .whole body rest) (as : List Arrival) :
    (hear none l as).2.now = l.now := by
  obtain ⟨c, hrecv, _⟩ := hl.recv.of_whole hwhole
  cases as <;> rw [hear, hrecv]

/-- The moment at which a frame is heard is that of the arrival that completes it. -/
theorem now_hear (before : List Arrival) {t : Nanos} {chunk : Bytes} (after : List Arrival)
    (hl : l.connection.Sound) (hopen : l.connection.closed = false)
    (hpieces : ∀ a ∈ before, ∃ piece, a.event = .bytes piece)
    (hshort : Frame.front l.limit (l.connection.stream ++ spoken before) = .short)
    (hwhole : Frame.front l.limit (l.connection.stream ++ spoken before ++ chunk) =
      .whole body rest) :
    (hear none l (before ++ ⟨t, .bytes chunk⟩ :: after)).2.now = max (latest l.now before) t := by
  induction before generalizing l with
  | nil =>
    rw [spoken, List.append_nil] at hshort hwhole
    obtain ⟨c, stays, hhear⟩ := hear_cons_of_short hl hopen hshort ⟨t, .bytes chunk⟩ after
    rw [List.nil_append, hhear]
    have hstream : (c.arrive chunk).stream = l.connection.stream ++ chunk := by
      rw [Connection.stream_arrive, stays.closed, hopen, stays.stream]
      rfl
    have hfront : Frame.front (c.arrive chunk).limit (c.arrive chunk).stream =
        .whole body rest := by
      rw [hstream, Connection.limit_arrive, stays.limit]
      exact hwhole
    let l₁ : Link := ({ l with connection := c }.advance t).deliver (.bytes chunk)
    exact now_hear_of_whole (l := l₁) (stays.sound.arrive chunk) hfront after
  | cons a before ih =>
    obtain ⟨due, event⟩ := a
    obtain ⟨piece, hpiece⟩ := hpieces _ List.mem_cons_self
    obtain rfl : event = .bytes piece := hpiece
    obtain ⟨c, stays, hhear⟩ := hear_cons_of_short hl hopen
      (Frame.short_of_append hl.decoder.limit_le hshort) ⟨due, .bytes piece⟩
      (before ++ ⟨t, .bytes chunk⟩ :: after)
    rw [List.cons_append, hhear]
    have hstream : (c.arrive piece).stream = l.connection.stream ++ piece := by
      rw [Connection.stream_arrive, stays.closed, hopen, stays.stream]
      rfl
    have hlimit : (c.arrive piece).limit = l.limit := (Connection.limit_arrive c piece).trans
      stays.limit
    rw [spoken, ← List.append_assoc, ← hstream, ← hlimit] at hshort hwhole
    exact ih (stays.sound.arrive piece)
      ((Connection.closed_arrive c piece).trans (stays.closed.trans hopen))
      (fun a ha => hpieces a (List.mem_cons_of_mem _ ha)) hshort hwhole

/-- Nothing whole has come, and nothing is on its way: the deadline passes. -/
theorem hear_of_silent (hl : l.connection.Sound) (hopen : l.connection.closed = false)
    (hshort : Frame.front l.limit l.connection.stream = .short) (t : Nanos) :
    ∃ l', hear (some t) l [] = (.expired, l') := by
  obtain ⟨c, hrecv, -⟩ := hl.recv.of_short hshort hopen
  exact ⟨_, by rw [hear, hrecv]⟩

/-- A frame comes in pieces, some of them after the deadline: the deadline passes. -/
theorem hear_of_late {t : Nanos} {as : List Arrival} (hl : l.connection.Sound)
    (hopen : l.connection.closed = false) (hbody : body.length ≤ l.limit)
    (hpieces : ∀ a ∈ as, ∃ piece, a.event = .bytes piece ∧ piece ≠ [])
    (hframe : l.connection.stream ++ spoken as = Frame.wrap body)
    (late : ∃ a ∈ as, t < a.due) : ∃ l', hear (some t) l as = (.expired, l') := by
  induction as generalizing l with
  | nil =>
    obtain ⟨a, ha, -⟩ := late
    cases ha
  | cons a as ih =>
    obtain ⟨due, event⟩ := a
    obtain ⟨piece, hpiece, hne⟩ := hpieces _ List.mem_cons_self
    obtain rfl : event = .bytes piece := hpiece
    -- The frame is not whole before its last piece, so each piece is waited for.
    have hmore : spoken (⟨due, .bytes piece⟩ :: as) ≠ [] :=
      fun hnil => hne (List.append_eq_nil_iff.mp hnil).1
    obtain ⟨c, hrecv, stays⟩ :=
      hl.recv.of_short (short_of_wrap hl.decoder.limit_le hbody hmore hframe) hopen
    rw [hear, hrecv]
    simp only
    split
    · exact ⟨_, rfl⟩
    · rename_i hintime
      have hrest : ∃ a ∈ as, t < a.due :=
        ((List.exists_mem_cons_iff ..).mp late).resolve_left hintime
      have hstream : (c.arrive piece).stream = l.connection.stream ++ piece := by
        rw [Connection.stream_arrive, stays.closed, hopen, stays.stream]
        rfl
      refine ih (stays.sound.arrive piece)
        ((Connection.closed_arrive c piece).trans (stays.closed.trans hopen)) ?_
        (fun a ha => hpieces a (List.mem_cons_of_mem _ ha)) ?_ hrest
      · exact Nat.le_trans hbody
          (Nat.le_of_eq ((Connection.limit_arrive c piece).trans stays.limit).symm)
      · change (c.arrive piece).stream ++ spoken as = _
        rw [hstream, List.append_assoc]
        exact hframe

end Link

end SumCluster.Network
