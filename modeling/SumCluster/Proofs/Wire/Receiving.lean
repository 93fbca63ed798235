import SumCluster.Proofs.Wire.Front
import SumCluster.Wire.Connection

/-!
What a receive can come to. The stream of a connection is everything that has arrived and was not
handed out; a receive answers with the frame at its front, or with an error if a length there is too
large. If no whole frame stands there, it answers that no message came once the far end has ended
the stream, and waits otherwise. How the bytes arrived does not matter.
-/

namespace SumCluster.Wire.Connection

open SumCluster.Wire.Frame (front)

/-- The longest body that is taken. -/
def limit (c : Connection) : Nat := c.decoder.limit

/-- Everything that has arrived and was not handed out. -/
def stream (c : Connection) : Bytes := c.decoder.stream c.buffer ++ c.waiting

/-- A connection on which nothing has gone wrong. -/
structure Sound (c : Connection) : Prop where
  decoder : c.decoder.Sound
  healthy : c.failed = false
  /-- What is in the buffer is left alone only if it is no whole frame. -/
  stalled : c.readable = false → front c.limit (c.decoder.stream c.buffer) = .short
  /-- The end is read last. -/
  last : c.ended = true → c.closed = true ∧ c.waiting = []

theorem sound_fresh (setting : Nat) : (fresh setting).Sound :=
  ⟨Frame.Decoder.sound_fresh setting, rfl, fun _ => rfl, fun h => nomatch h⟩

/-! ### Arrivals -/

@[simp] theorem limit_arrive (c : Connection) (bytes : Bytes) :
    (c.arrive bytes).limit = c.limit := by
  unfold arrive; split <;> rfl

@[simp] theorem closed_arrive (c : Connection) (bytes : Bytes) :
    (c.arrive bytes).closed = c.closed := by
  unfold arrive; split <;> rfl

theorem stream_arrive (c : Connection) (bytes : Bytes) :
    (c.arrive bytes).stream = c.stream ++ if c.closed then [] else bytes := by
  unfold arrive
  split
  · rw [List.append_nil]
  · simp only [stream, List.append_assoc]

theorem Sound.arrive {c : Connection} (hc : c.Sound) (bytes : Bytes) : (c.arrive bytes).Sound := by
  unfold Connection.arrive
  split
  · exact hc
  · rename_i hopen
    exact ⟨hc.decoder, hc.healthy, hc.stalled, fun h => absurd (hc.last h).1 hopen⟩

theorem Sound.close {c : Connection} (hc : c.Sound) : c.close.Sound :=
  ⟨hc.decoder, hc.healthy, hc.stalled, fun h => ⟨rfl, (hc.last h).2⟩⟩

/-! ### The way of a receive -/

section Way

variable {c c₁ c₂ c' : Connection} {outcome : Frame.Outcome}

/-- After a failure a receive says that there is no more. -/
theorem recv_of_failed (h : c.failed = true) :
    c.recv = (some (.ok none), { c with readable := false, failed := false }) :=
  if_pos h

theorem recv_of_buffer (healthy : c.failed = false) (h : c.fromBuffer = .inl (outcome, c')) :
    c.recv = (some outcome, c') := by
  rw [Connection.recv, if_neg (by rw [healthy]; decide), h]

/-- What the buffer does not answer is left to what waits behind it. -/
theorem recv_of_waiting (healthy : c.failed = false) (hbuffer : c.fromBuffer = .inr c₁)
    (h : c₁.fromWaiting = .inl (outcome, c')) : c.recv = (some outcome, c') := by
  rw [Connection.recv, if_neg (by rw [healthy]; decide), hbuffer]
  simp only [h]

/-- What neither answers is left to the end. -/
theorem recv_of_passed (healthy : c.failed = false) (hbuffer : c.fromBuffer = .inr c₁)
    (h : c₁.fromWaiting = .inr c₂) : c.recv = c₂.fromEnd := by
  rw [Connection.recv, if_neg (by rw [healthy]; decide), hbuffer]
  simp only [h]

end Way

/-! ### One receive -/

/-- What is left unchanged while nothing is handed out. -/
structure Stays (c c' : Connection) : Prop where
  sound : c'.Sound
  limit : c'.limit = c.limit
  closed : c'.closed = c.closed
  stream : c'.stream = c.stream

theorem Stays.refl {c : Connection} (hc : c.Sound) : Stays c c := ⟨hc, rfl, rfl, rfl⟩

/-- All that a receive can come to. -/
inductive Receives (c : Connection) : Option Frame.Outcome × Connection → Prop where
  /-- The frame at the front is handed out, or found to be no message. -/
  | whole {body rest : Bytes} {c' : Connection} (h : front c.limit c.stream = .whole body rest)
      (limit : c'.limit = c.limit) (closed : c'.closed = c.closed) (stream : c'.stream = rest)
      (sound : ∀ m, Message.ofBody body = .ok m → c'.Sound) :
      Receives c (some ((Message.ofBody body).map some), c')
  /-- The length at the front is too large. -/
  | tooLong {c' : Connection} (h : front c.limit c.stream = .tooLong) (limit : c'.limit = c.limit)
      (closed : c'.closed = c.closed) : Receives c (some (.error .frameTooBig), c')
  /-- The stream has ended, and no whole frame is left. -/
  | ended {outcome : Frame.Outcome} {c' : Connection} (h : front c.limit c.stream = .short)
      (hclosed : c.closed = true) (houtcome : outcome = .ok none ∨ outcome = .error .strayBytes)
      (limit : c'.limit = c.limit) (closed : c'.closed = c.closed) : Receives c (some outcome, c')
  /-- More has to come. -/
  | waits {c' : Connection} (h : front c.limit c.stream = .short) (hopen : c.closed = false)
      (stays : Stays c c') : Receives c (none, c')

/-- A receive is told by the limit, the stream and whether it has ended. -/
theorem Receives.of_stays {c₁ c : Connection} {r : Option Frame.Outcome × Connection}
    (h : Receives c₁ r) (limit : c₁.limit = c.limit) (closed : c₁.closed = c.closed)
    (stream : c₁.stream = c.stream) : Receives c r := by
  cases h with
  | whole h hl hc hs hsound =>
    exact .whole (by rw [← limit, ← stream, h]) (hl.trans limit) (hc.trans closed) hs hsound
  | tooLong h hl hc =>
    exact .tooLong (by rw [← limit, ← stream, h]) (hl.trans limit) (hc.trans closed)
  | ended h hclosed houtcome hl hc =>
    exact .ended (by rw [← limit, ← stream, h]) (closed ▸ hclosed) houtcome (hl.trans limit)
      (hc.trans closed)
  | waits h hopen hst =>
    exact .waits (by rw [← limit, ← stream, h]) (closed ▸ hopen)
      ⟨hst.sound, hst.limit.trans limit, hst.closed.trans closed, hst.stream.trans stream⟩

/-- With a whole frame at the front, a receive hands it out. -/
theorem Receives.of_whole {c : Connection} {r : Option Frame.Outcome × Connection}
    {body rest : Bytes} (h : Receives c r) (hfront : front c.limit c.stream = .whole body rest) :
    ∃ c', r = (some ((Message.ofBody body).map some), c') ∧ c'.limit = c.limit ∧
      c'.closed = c.closed ∧ c'.stream = rest ∧ ∀ m, Message.ofBody body = .ok m → c'.Sound := by
  cases h with
  | whole hf hlimit hclosed hstream hsound =>
    obtain ⟨rfl, rfl⟩ := Frame.Front.whole.inj (hfront.symm.trans hf)
    exact ⟨_, rfl, hlimit, hclosed, hstream, hsound⟩
  | tooLong hf => exact absurd (hfront.symm.trans hf) nofun
  | ended hf => exact absurd (hfront.symm.trans hf) nofun
  | waits hf => exact absurd (hfront.symm.trans hf) nofun

/-- With a length there that is too large, it refuses to go on. -/
theorem Receives.of_tooLong {c : Connection} {r : Option Frame.Outcome × Connection}
    (h : Receives c r) (hfront : front c.limit c.stream = .tooLong) :
    ∃ c', r = (some (.error .frameTooBig), c') := by
  cases h with
  | whole hf => exact absurd (hfront.symm.trans hf) nofun
  | tooLong => exact ⟨_, rfl⟩
  | ended hf => exact absurd (hfront.symm.trans hf) nofun
  | waits hf => exact absurd (hfront.symm.trans hf) nofun

/-- Without one, it waits as long as the stream goes on. -/
theorem Receives.of_short {c : Connection} {r : Option Frame.Outcome × Connection}
    (h : Receives c r) (hfront : front c.limit c.stream = .short) (hopen : c.closed = false) :
    ∃ c', r = (none, c') ∧ Stays c c' := by
  cases h with
  | whole hf => exact absurd (hfront.symm.trans hf) nofun
  | tooLong hf => exact absurd (hfront.symm.trans hf) nofun
  | ended _ hclosed => exact absurd (hopen.symm.trans hclosed) nofun
  | waits _ _ stays => exact ⟨_, rfl, stays⟩

/-! #### Steps of the decoder -/

variable {c : Connection} {body rest : Bytes}

/-- The buffer is about to be decoded. -/
structure Decodes (c : Connection) : Prop where
  decoder : c.decoder.Sound
  readable : c.readable = true
  last : c.ended = true → c.closed = true ∧ c.waiting = []

/-- A frame comes off the buffer. -/
theorem Decodes.whole (hc : c.Decodes)
    (hf : front c.limit (c.decoder.stream c.buffer) = .whole body rest) {outcome : Frame.Outcome}
    {c' : Connection} (h : c.afterStep ((Message.ofBody body).map some,
      { c.decoder with awaited := none }, rest) = (outcome, c')) :
    Receives c (some outcome, c') := by
  have hstream : front c.limit c.stream = .whole body (rest ++ c.waiting) :=
    Frame.front_append_whole hc.decoder.limit_le hf c.waiting
  cases hm : Message.ofBody body with
  | ok m =>
    rw [hm] at h
    obtain ⟨rfl, rfl⟩ := Prod.mk.inj h
    have hgood : Receives c (some ((Message.ofBody body).map some), { c with
        decoder := { c.decoder with awaited := none }, buffer := rest, failed := false }) :=
      .whole hstream rfl rfl rfl fun _ _ =>
        ⟨hc.decoder.forget, rfl, fun hr => absurd (hc.readable.symm.trans hr) (by decide), hc.last⟩
    rwa [hm] at hgood
  | error e =>
    rw [hm] at h
    obtain ⟨rfl, rfl⟩ := Prod.mk.inj h
    have hbad : Receives c (some ((Message.ofBody body).map some), { c with
        decoder := { c.decoder with awaited := none }, buffer := rest, failed := true }) :=
      .whole hstream rfl rfl rfl fun m hok => absurd (hm.symm.trans hok) (by simp)
    rwa [hm] at hbad

/-- A length that is too large stays where it is. -/
theorem tooLong_receives (hf : front c.limit (c.decoder.stream c.buffer) = .tooLong) :
    Receives c (some (.error .frameTooBig), { c with failed := true }) :=
  .tooLong (Frame.front_append_tooLong hf c.waiting) rfl rfl

/-- The end of the stream is decoded. -/
theorem Decodes.drain (hc : c.Decodes) (hclosed : c.closed = true) (hw : c.waiting = []) :
    Receives c (some c.drain.1, c.drain.2) := by
  have hstream : c.stream = c.decoder.stream c.buffer := by rw [stream, hw, List.append_nil]
  unfold Connection.drain Frame.Decoder.decodeEnd
  cases hf : front c.limit (c.decoder.stream c.buffer) with
  | whole body rest =>
    rw [Frame.Decoder.decode_whole hc.decoder hf]
    cases hm : Message.ofBody body <;> exact hc.whole hf (by rw [hm]; rfl)
  | tooLong =>
    rw [Frame.Decoder.decode_tooLong hc.decoder hf]
    exact tooLong_receives hf
  | short =>
    obtain ⟨d', buffer', hdec, hst⟩ := Frame.Decoder.decode_short hc.decoder hf
    rw [hdec]
    refine .ended (hstream ▸ hf) hclosed ?_ hst.limit rfl
    by_cases hnil : buffer' = []
    · exact .inl (if_pos hnil)
    · exact .inr (if_neg hnil)

/-- What decoding the buffer leaves behind when there is no whole frame in it. -/
structure Stalls (c c' : Connection) : Prop extends Stays c c' where
  unreadable : c'.readable = false
  waiting : c'.waiting = c.waiting

theorem Decodes.fromBuffer_of_short (hc : c.Decodes) (hopen : c.ended = false)
    (hf : front c.limit (c.decoder.stream c.buffer) = .short) :
    ∃ c', c.fromBuffer = .inr c' ∧ Stalls c c' ∧ c'.ended = false := by
  obtain ⟨d', buffer', hdec, hst⟩ := Frame.Decoder.decode_short hc.decoder hf
  unfold Connection.fromBuffer
  rw [if_pos hc.readable, if_neg (by rw [hopen]; decide), hdec]
  refine ⟨_, rfl, ⟨⟨⟨hst.sound, rfl, fun _ => ?_, hc.last⟩, hst.limit, rfl, ?_⟩, rfl, rfl⟩, hopen⟩
  · show front d'.limit (d'.stream buffer') = .short
    rw [hst.limit, hst.stream]
    exact hf
  · show d'.stream buffer' ++ c.waiting = c.stream
    rw [hst.stream]
    rfl

/-- Decoding before the end of the stream is read. -/
theorem Decodes.fromBuffer (hc : c.Decodes) (hopen : c.ended = false) :
    (∃ outcome c', c.fromBuffer = .inl (outcome, c') ∧ Receives c (some outcome, c')) ∨
      ∃ c', c.fromBuffer = .inr c' ∧ Stalls c c' := by
  have hdecodes : ¬c.ended = true := by rw [hopen]; decide
  cases hf : front c.limit (c.decoder.stream c.buffer) with
  | whole body rest =>
    rw [Connection.fromBuffer, if_pos hc.readable, if_neg hdecodes,
      Frame.Decoder.decode_whole hc.decoder hf]
    left
    cases hm : Message.ofBody body with
    | ok m => exact ⟨_, _, rfl, hc.whole hf (by rw [hm]; rfl)⟩
    | error e => exact ⟨_, _, rfl, hc.whole hf (by rw [hm]; rfl)⟩
  | tooLong =>
    rw [Connection.fromBuffer, if_pos hc.readable, if_neg hdecodes,
      Frame.Decoder.decode_tooLong hc.decoder hf]
    exact .inl ⟨_, _, rfl, tooLong_receives hf⟩
  | short =>
    obtain ⟨c', hbuffer, hst, -⟩ := hc.fromBuffer_of_short hopen hf
    exact .inr ⟨c', hbuffer, hst⟩

/-- Reading what waits, when the buffer has no whole frame. -/
theorem Sound.fromWaiting (hc : c.Sound) (hr : c.readable = false) :
    (∃ outcome c', c.fromWaiting = .inl (outcome, c') ∧ Receives c (some outcome, c')) ∨
      ∃ c', c.fromWaiting = .inr c' ∧ Stays c c' ∧ c'.readable = false ∧ c'.waiting = [] := by
  unfold Connection.fromWaiting
  by_cases hw : c.waiting = []
  · rw [if_pos hw]
    exact .inr ⟨c, rfl, .refl hc, hr, hw⟩
  · rw [if_neg hw]
    -- All that waits moves into the buffer, so the stream is the same.
    have hstream : c.decoder.stream (c.buffer ++ c.waiting) ++ [] = c.stream := by
      rw [List.append_nil, Frame.Decoder.stream_append]
      rfl
    obtain ⟨outcome, c', h, hrec⟩ | ⟨c', h, hst⟩ := Decodes.fromBuffer (c := { c with
      buffer := c.buffer ++ c.waiting, waiting := [], ended := false, readable := true })
      ⟨hc.decoder, rfl, fun h => nomatch h⟩ rfl
    · exact .inl ⟨outcome, c', h, hrec.of_stays rfl rfl hstream⟩
    · refine .inr ⟨c', h, ⟨hst.sound, hst.limit, hst.closed, ?_⟩, hst.unreadable, hst.waiting⟩
      exact hst.stream.trans hstream

/-- Reading the end, when nothing waits and the buffer has no whole frame. -/
theorem Sound.fromEnd (hc : c.Sound) (hr : c.readable = false) (hw : c.waiting = []) :
    Receives c c.fromEnd := by
  have hshort : front c.limit c.stream = .short := by
    rw [stream, hw, List.append_nil]
    exact hc.stalled hr
  unfold Connection.fromEnd
  by_cases hclosed : c.closed = true
  · rw [if_pos hclosed]
    by_cases hended : c.ended = true
    · rw [if_pos hended]
      exact .ended hshort hclosed (.inl rfl) rfl rfl
    · rw [if_neg hended]
      have h := Decodes.drain (c := { c with ended := true, readable := true })
        ⟨hc.decoder, rfl, fun _ => ⟨hclosed, hw⟩⟩ hclosed hw
      exact h.of_stays rfl rfl rfl
  · rw [if_neg hclosed]
    exact .waits hshort (Bool.eq_false_iff.mpr hclosed) (.refl hc)

/-- A receive on a connection on which nothing has gone wrong. -/
theorem Sound.recv (hc : c.Sound) : Receives c c.recv := by
  -- A buffer without a whole frame leaves it to what waits behind.
  have stalled (c₁ : Connection) (hb : c.fromBuffer = .inr c₁) (hst : Stays c c₁)
      (hr : c₁.readable = false) : Receives c c.recv := by
    obtain ⟨outcome, c', h, hrec⟩ | ⟨c₂, h, hst₂, hr₂, hw₂⟩ := hst.sound.fromWaiting hr
    · rw [recv_of_waiting hc.healthy hb h]
      exact hrec.of_stays hst.limit hst.closed hst.stream
    · rw [recv_of_passed hc.healthy hb h]
      exact (hst₂.sound.fromEnd hr₂ hw₂).of_stays (hst₂.limit.trans hst.limit)
        (hst₂.closed.trans hst.closed) (hst₂.stream.trans hst.stream)
  by_cases hr : c.readable = true
  · by_cases hended : c.ended = true
    · obtain ⟨hclosed, hw⟩ := hc.last hended
      have hbuffer : c.fromBuffer = .inl c.drain := by
        rw [Connection.fromBuffer, if_pos hr, if_pos hended]
      rw [recv_of_buffer hc.healthy hbuffer]
      exact Decodes.drain ⟨hc.decoder, hr, hc.last⟩ hclosed hw
    · obtain ⟨outcome, c', h, hrec⟩ | ⟨c', h, hst⟩ :=
        Decodes.fromBuffer ⟨hc.decoder, hr, hc.last⟩ (Bool.eq_false_iff.mpr hended)
      · rw [recv_of_buffer hc.healthy h]
        exact hrec
      · exact stalled c' h hst.toStays hst.unreadable
  · refine stalled c ?_ (.refl hc) (Bool.eq_false_iff.mpr hr)
    rw [Connection.fromBuffer, if_neg hr]

end SumCluster.Wire.Connection
