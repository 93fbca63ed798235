import SumCluster.Proofs.Wire.Chunking
import SumCluster.Proofs.Wire.Receiving

/-!
What the end of a stream comes to. All that there is to say about a stream is told by its bytes and
by whether it has ended: what comes of each frame, and then what the end makes of the rest, a clean
end if nothing is left of it but, at most, a length whose body has not begun. Main statement: as
long as no receive has failed, a receive says what comes first of this, and a clean end is final.
-/

namespace SumCluster.Wire

namespace Frame

variable {limit : Nat} {bs body rest : Bytes}

/-! ### What there is to say about a stream -/

/-- What the end of a stream makes of a rest without a whole frame. A length whose body has not
begun counts as nothing. -/
def ending (limit : Nat) (rest : Bytes) : Outcome :=
  match front limit rest with
  | .tooLong => .error .frameTooBig
  | _ => if rest = [] ∨ rest.length = headerSize then .ok none else .error .strayBytes

/-- All that there is to say about a stream, which may have ended. -/
def told (limit : Nat) (closed : Bool) (bs : Bytes) : List Outcome :=
  if closed then (cut limit bs).1.map outcome ++ [ending limit (cut limit bs).2]
  else outcomes limit bs

theorem told_eq_cut (limit : Nat) (closed : Bool) (bs : Bytes) : told limit closed bs =
    (cut limit bs).1.map outcome ++
      if closed then [ending limit (cut limit bs).2] else refusal limit (cut limit bs).2 := by
  unfold told outcomes
  cases closed <;> rfl

theorem ending_of_tooLong (h : front limit rest = .tooLong) :
    ending limit rest = .error .frameTooBig := by
  rw [ending, h]

theorem ending_of_short (h : front limit rest = .short) : ending limit rest =
    if rest = [] ∨ rest.length = headerSize then .ok none else .error .strayBytes := by
  rw [ending, h]

theorem told_of_whole (h : front limit bs = .whole body rest) (closed : Bool) :
    told limit closed bs = outcome body :: told limit closed rest := by
  unfold told
  rw [cut_of_whole h, outcomes_of_whole h]
  cases closed <;> rfl

theorem told_of_tooLong (h : front limit bs = .tooLong) (closed : Bool) :
    told limit closed bs = [.error .frameTooBig] := by
  unfold told
  rw [cut_of_tooLong h, outcomes_of_tooLong h, ending_of_tooLong h]
  cases closed <;> rfl

theorem told_of_short (h : front limit bs = .short) (closed : Bool) :
    told limit closed bs = if closed then [ending limit bs] else [] := by
  unfold told
  rw [cut_of_short h, outcomes_of_short h]
  rfl

/-- Frames at the front of a stream are told about first. -/
theorem told_frames (hl : limit ≤ longest) (closed : Bool) {bodies : List Bytes}
    (hfits : ∀ body ∈ bodies, body.length ≤ limit) (bs : Bytes) :
    told limit closed (bodies.flatMap wrap ++ bs) =
      bodies.map outcome ++ told limit closed bs := by
  induction bodies with
  | nil => rfl
  | cons body bodies ih =>
    obtain ⟨hbody, hbodies⟩ := List.forall_mem_cons.mp hfits
    rw [List.flatMap_cons, List.append_assoc, told_of_whole (front_wrap hbody hl _), ih hbodies]
    rfl

/-- What was told about a stream stays told, whether it goes on or ends. -/
theorem outcomes_isPrefix (hl : limit ≤ longest) (bs more : Bytes) (closed : Bool) :
    outcomes limit bs <+: told limit closed (bs ++ more) := by
  induction bs using front_induction limit with
  | whole bs body rest hf ih =>
    rw [outcomes_of_whole hf, told_of_whole (front_append_whole hl hf more)]
    exact (List.prefix_cons_inj _).mpr ih
  | tooLong bs hf =>
    rw [outcomes_of_tooLong hf, told_of_tooLong (front_append_tooLong hf more)]
  | short bs hf =>
    rw [outcomes_of_short hf]
    exact List.nil_prefix

/-- A rest that the end of the stream leaves no more to say about: nothing, or a bare length. -/
theorem eq_nil_or_eq_bigEndian (h : front limit rest = .short) :
    (rest = [] ∨ rest.length = headerSize) ↔
      rest = [] ∨ ∃ n ≤ limit, rest = bigEndian headerSize n := by
  refine or_congr_right ⟨fun hlen => ?_, ?_⟩
  · have hread := bigEndian_ofBigEndian_take (Nat.le_of_eq hlen.symm)
    rw [List.take_of_length_le (by omega)] at hread
    unfold front at h
    split_ifs at h with h1 h2 h3
    · omega
    · rw [List.take_of_length_le (by omega)] at h2
      exact ⟨_, Nat.not_lt.mp h2, hread.symm⟩
  · rintro ⟨n, -, rfl⟩
    exact length_bigEndian ..

/-- The end is a clean one exactly before nothing, or before a bare length. -/
theorem ending_eq_none_iff (hl : limit ≤ longest)
    (h : front limit rest = .tooLong ∨ front limit rest = .short) :
    ending limit rest = .ok none ↔ rest = [] ∨ ∃ n ≤ limit, rest = bigEndian headerSize n := by
  rcases h with h | h
  · rw [ending_of_tooLong h]
    refine ⟨nofun, ?_⟩
    rintro (rfl | ⟨n, hn, rfl⟩)
    · exact absurd h nofun
    · have hheader := front_header hn hl []
      rw [List.append_nil, h] at hheader
      split_ifs at hheader
  · rw [ending_of_short h, ← eq_nil_or_eq_bigEndian h]
    split_ifs with hrest
    · exact iff_of_true rfl hrest
    · exact iff_of_false nofun hrest

/-- An end is clean or an error. -/
theorem ending_eq_none_or_error (limit : Nat) (rest : Bytes) :
    ending limit rest = .ok none ∨ ∃ e, ending limit rest = .error e := by
  unfold ending
  split
  · exact .inr ⟨_, rfl⟩
  · split_ifs
    · exact .inl rfl
    · exact .inr ⟨_, rfl⟩

namespace Decoder

variable {d : Decoder} {buffer : Bytes}

/-- Before a stream without a whole frame, a decoder's buffer is empty exactly if there is nothing
or a bare length. -/
theorem resting_eq_nil (h : front limit rest = .short) :
    (resting limit rest).2 = [] ↔ rest = [] ∨ rest.length = headerSize := by
  unfold front at h
  unfold resting
  split_ifs at h with h1 h2 h3
  · rw [if_pos (.inl h1)]
    exact ⟨.inl, fun hrest => hrest.resolve_right (Nat.ne_of_lt h1)⟩
  · rw [if_neg (by omega), List.drop_eq_nil_iff]
    constructor
    · intro hle
      exact .inr (by omega)
    · rintro (rfl | hlen)
      · exact Nat.zero_le _
      · exact Nat.le_of_eq hlen

theorem decodeEnd_of_short (hd : d.Sound) (h : front d.limit (d.stream buffer) = .short) :
    d.decodeEnd buffer =
      (if d.stream buffer = [] ∨ (d.stream buffer).length = headerSize then .ok none
        else .error .strayBytes, resting d.limit (d.stream buffer)) := by
  rw [decodeEnd, decode_of_short hd h]
  simp only [resting_eq_nil h]

end Decoder

end Frame

namespace Connection

open Wire.Frame (front told ending outcome)

variable {c c' : Connection} {limit : Nat} {body rest : Bytes}

/-! ### Reading the end -/

/-- A connection on which no receive has failed and none has reported the end. -/
structure Open (c : Connection) : Prop extends Sound c where
  /-- The end was read only while frames come out of the buffer. -/
  unended : c.ended = true → c.readable = true

/-- A receive that has to wait leaves a connection on which no end has been read. -/
theorem Stays.isOpen (h : Stays c c') (hopen : c.closed = false) : c'.Open :=
  ⟨h.sound, fun hended => absurd ((h.closed.trans hopen).symm.trans (h.sound.last hended).1) nofun⟩

/-- A decoding step that gives a message leaves the buffer to be decoded again. -/
theorem readable_afterStep {m : Message} {r : Frame.Outcome × Frame.Decoder × Bytes}
    (hr : c.readable = true) (h : c.afterStep r = (.ok (some m), c')) : c'.readable = true := by
  obtain ⟨outcome, decoder, buffer⟩ := r
  obtain ⟨rfl, rfl⟩ := Prod.mk.inj h
  exact hr

theorem readable_fromBuffer {m : Message} (h : c.fromBuffer = .inl (.ok (some m), c')) :
    c'.readable = true := by
  unfold fromBuffer at h
  split_ifs at h with hr hended
  · exact readable_afterStep hr (Sum.inl.inj h)
  · split at h
    · cases h
    · exact readable_afterStep hr (Sum.inl.inj h)

theorem readable_fromWaiting {m : Message} (h : c.fromWaiting = .inl (.ok (some m), c')) :
    c'.readable = true := by
  unfold fromWaiting at h
  split_ifs at h
  exact readable_fromBuffer h

theorem readable_fromEnd {m : Message} (h : c.fromEnd = (some (.ok (some m)), c')) :
    c'.readable = true := by
  unfold fromEnd at h
  split_ifs at h
  · cases h
  · obtain ⟨ho, rfl⟩ := Prod.mk.inj h
    exact readable_afterStep (c := { c with ended := true, readable := true }) rfl
      (Prod.ext (Option.some.inj ho) rfl)
  · cases h

/-- A message leaves the rest of the buffer to the next receive. -/
theorem readable_of_message {m : Message} (h : c.recv = (some (.ok (some m)), c')) :
    c'.readable = true := by
  by_cases hf : c.failed = true
  · rw [recv_of_failed hf] at h
    cases h
  have healthy := Bool.eq_false_iff.mpr hf
  rcases hbuffer : c.fromBuffer with ⟨o, c₁⟩ | c₁
  · obtain ⟨ho, rfl⟩ := Prod.mk.inj ((recv_of_buffer healthy hbuffer).symm.trans h)
    obtain rfl := Option.some.inj ho
    exact readable_fromBuffer hbuffer
  rcases hwaiting : c₁.fromWaiting with ⟨o, c₂⟩ | c₂
  · obtain ⟨ho, rfl⟩ := Prod.mk.inj ((recv_of_waiting healthy hbuffer hwaiting).symm.trans h)
    obtain rfl := Option.some.inj ho
    exact readable_fromWaiting hwaiting
  · exact readable_fromEnd ((recv_of_passed healthy hbuffer hwaiting).symm.trans h)

theorem Sound.fromBuffer_of_short (hc : c.Sound) (hended : c.ended = false)
    (h : front c.limit (c.decoder.stream c.buffer) = .short) :
    ∃ c', c.fromBuffer = .inr c' ∧ Stalls c c' ∧ c'.ended = false := by
  by_cases hr : c.readable = true
  · exact Decodes.fromBuffer_of_short ⟨hc.decoder, hr, hc.last⟩ hended h
  · exact ⟨c, if_neg hr, ⟨.refl hc, Bool.eq_false_iff.mpr hr, rfl⟩, hended⟩

/-- Before the end was read, a receive on a stream without a whole frame comes down to the end. -/
theorem Sound.recv_of_short (hc : c.Sound) (hended : c.ended = false)
    (h : front c.limit c.stream = .short) :
    ∃ c', c.recv = c'.fromEnd ∧ Stays c c' ∧ c'.ended = false ∧ c'.waiting = [] := by
  have hbuffer := Frame.short_of_append hc.decoder.limit_le h
  obtain ⟨c₁, h₁, hst₁, hended₁⟩ := hc.fromBuffer_of_short hended hbuffer
  by_cases hw : c₁.waiting = []
  · exact ⟨c₁, recv_of_passed hc.healthy h₁ (if_pos hw), hst₁.toStays, hended₁, hw⟩
  · -- All that waits moves into the buffer, so the stream is the same.
    let c₂ : Connection := { c₁ with
      buffer := c₁.buffer ++ c₁.waiting, waiting := [], ended := false, readable := true }
    have hstream : c₂.decoder.stream c₂.buffer = c.stream := by
      rw [← hst₁.stream, Frame.Decoder.stream_append]
      rfl
    have hdecodes : c₂.Decodes :=
      ⟨hst₁.sound.decoder, rfl, fun hended => absurd hended Bool.false_ne_true⟩
    obtain ⟨c₃, h₃, hst₃, hended₃⟩ := hdecodes.fromBuffer_of_short rfl (by
      rw [hstream, ← h, ← hst₁.limit]
      rfl)
    have hwaiting : c₁.fromWaiting = .inr c₃ := (if_neg hw).trans h₃
    have hsame : c₃.stream = c.stream := by
      rw [hst₃.stream, stream, hstream]
      exact List.append_nil _
    exact ⟨c₃, recv_of_passed hc.healthy h₁ hwaiting,
      ⟨hst₃.sound, hst₃.limit.trans hst₁.limit, hst₃.closed.trans hst₁.closed, hsame⟩,
      hended₃, hst₃.waiting⟩

/-- A connection whose end has been reported. -/
structure Over (c : Connection) : Prop where
  closed : c.closed = true
  ended : c.ended = true
  unreadable : c.readable = false
  read : c.waiting = []
  healthy : c.failed = false

/-- The end is reported again. -/
theorem Over.recv (hc : c.Over) : c.recv = (some (.ok none), c) := by
  have hbuffer : c.fromBuffer = .inr c := by
    rw [fromBuffer, if_neg (by rw [hc.unreadable]; decide)]
  rw [recv_of_passed hc.healthy hbuffer (if_pos hc.read), fromEnd, if_pos hc.closed,
    if_pos hc.ended]

/-- What is left of a stream at its end is told, and a clean end is final. -/
theorem drain_of_short (hd : c.decoder.Sound) (hclosed : c.closed = true) (hended : c.ended = true)
    (hw : c.waiting = []) (hf : front c.limit c.stream = .short) : ∃ outcome c',
      c.drain = (outcome, c') ∧ ending c.limit c.stream = outcome ∧
        (outcome = .ok none → c'.Over) := by
  have hstream : c.stream = c.decoder.stream c.buffer := by rw [stream, hw, List.append_nil]
  rw [hstream] at hf ⊢
  have hdecode := Frame.Decoder.decodeEnd_of_short hd hf
  have hdrain : c.drain = c.afterStep _ := congrArg c.afterStep hdecode
  refine ⟨_, _, hdrain, Frame.ending_of_short hf, fun hnone => ?_⟩
  rw [hnone]
  exact ⟨hclosed, hended, rfl, hw, rfl⟩

/-- At the end of the stream, a receive without a whole frame says what the end comes to. -/
theorem Open.recv_of_closed (hc : c.Open) (hclosed : c.closed = true)
    (hf : front c.limit c.stream = .short) : ∃ outcome c',
      c.recv = (some outcome, c') ∧ ending c.limit c.stream = outcome ∧
        (outcome = .ok none → c'.Over) := by
  by_cases hended : c.ended = true
  · have hr := hc.unended hended
    obtain ⟨outcome, c', hdrain, hend, hover⟩ :=
      drain_of_short hc.decoder hclosed hended (hc.last hended).2 hf
    have hbuffer : c.fromBuffer = .inl (outcome, c') := by
      rw [fromBuffer, if_pos hr, if_pos hended, hdrain]
    exact ⟨outcome, c', recv_of_buffer hc.healthy hbuffer, hend, hover⟩
  · obtain ⟨c₁, hrecv, hst, hended₁, hw⟩ :=
      hc.toSound.recv_of_short (Bool.eq_false_iff.mpr hended) hf
    have hclosed₁ := hst.closed.trans hclosed
    obtain ⟨outcome, c', hdrain, hend, hover⟩ := drain_of_short
      (c := { c₁ with ended := true, readable := true }) hst.sound.decoder hclosed₁ rfl hw (by
        rw [← hf, ← hst.limit, ← hst.stream]
        rfl)
    refine ⟨outcome, c', ?_, ?_, hover⟩
    · rw [hrecv, fromEnd, if_pos hclosed₁, if_neg (by rw [hended₁]; decide), hdrain]
    · rw [← hend, ← hst.limit, ← hst.stream]
      rfl

/-- A receive says what comes first of all that there is to say. -/
theorem Open.recv_told (hc : c.Open) : c.recv.1 = (told c.limit c.closed c.stream).head? := by
  cases hf : front c.limit c.stream with
  | whole body rest =>
    obtain ⟨c', hrecv, -⟩ := hc.toSound.recv.of_whole hf
    rw [hrecv, Frame.told_of_whole hf, List.head?_cons]
  | tooLong =>
    obtain ⟨c', hrecv⟩ := hc.toSound.recv.of_tooLong hf
    rw [hrecv, Frame.told_of_tooLong hf, List.head?_cons]
  | short =>
    rw [Frame.told_of_short hf]
    cases hclosed : c.closed with
    | false =>
      obtain ⟨c', hrecv, -⟩ := hc.toSound.recv.of_short hf hclosed
      rw [hrecv]
      rfl
    | true =>
      obtain ⟨outcome, c', hrecv, hend, -⟩ := hc.recv_of_closed hclosed hf
      rw [hrecv, if_pos rfl, hend, List.head?_cons]

end Connection

end SumCluster.Wire
