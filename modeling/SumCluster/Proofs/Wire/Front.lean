import Mathlib.Tactic.Set
import SumCluster.Proofs.Wire.Body
import SumCluster.Wire.Frame

/-!
What stands at the front of a stream: a whole frame, a length that is too large, or a frame that is
not all there yet. This is said of the bytes alone. A decoder that has already taken a length off is
told by the bytes with that length put back, and its next step is the one that the front asks for.
-/

namespace SumCluster.Wire

namespace Frame

/-! ### The front of a stream -/

/-- What stands at the front of a stream. -/
inductive Front where
  /-- A whole frame with this body, and what comes after it. -/
  | whole (body rest : Bytes)
  /-- A length above the limit. -/
  | tooLong
  /-- No whole frame. -/
  | short

/-- Looks at the front of a stream. -/
def front (limit : Nat) (bs : Bytes) : Front :=
  if bs.length < headerSize then .short
  else if limit < ofBigEndian (bs.take headerSize) then .tooLong
  else if (bs.drop headerSize).length < ofBigEndian (bs.take headerSize) then .short
  else .whole ((bs.drop headerSize).take (ofBigEndian (bs.take headerSize)))
    ((bs.drop headerSize).drop (ofBigEndian (bs.take headerSize)))

theorem limitOf_le (setting : Nat) : limitOf setting ≤ longest := Nat.min_le_right _ _

theorem longest_lt {n : Nat} (h : n ≤ longest) : n < 256 ^ headerSize := by
  have hl : longest < 256 ^ headerSize := by decide
  omega

variable {limit : Nat} {bs body rest : Bytes}

/-- A length that the limit allows, and some bytes after it. -/
theorem front_header {n : Nat} (hn : n ≤ limit) (hl : limit ≤ longest) (buffer : Bytes) :
    front limit (bigEndian headerSize n ++ buffer) =
      if buffer.length < n then .short else .whole (buffer.take n) (buffer.drop n) := by
  have hlen : (bigEndian headerSize n).length = headerSize := length_bigEndian ..
  have hread : ofBigEndian (bigEndian headerSize n) = n :=
    ofBigEndian_bigEndian (longest_lt (Nat.le_trans hn hl))
  have hsize : ¬(bigEndian headerSize n ++ buffer).length < headerSize := by
    rw [List.length_append, hlen]; omega
  rw [front, if_neg hsize, List.take_left' hlen, List.drop_left' hlen, hread,
    if_neg (Nat.not_lt.mpr hn)]

theorem front_wrap (hb : body.length ≤ limit) (hl : limit ≤ longest) (rest : Bytes) :
    front limit (wrap body ++ rest) = .whole body rest := by
  rw [wrap, List.append_assoc, front_header hb hl, if_neg (by simp), List.take_left,
    List.drop_left]

/-- The four bytes at the front are the form of the length that they announce. -/
theorem bigEndian_ofBigEndian_take (h : headerSize ≤ bs.length) :
    bigEndian headerSize (ofBigEndian (bs.take headerSize)) = bs.take headerSize := by
  have h4 : (bs.take headerSize).length = headerSize := List.length_take_of_le h
  have hhead := bigEndian_ofBigEndian (bs.take headerSize)
  rwa [h4] at hhead

/-- A whole frame at the front is what it was made of. -/
theorem eq_wrap_of_front (h : front limit bs = .whole body rest) :
    bs = wrap body ++ rest ∧ body.length ≤ limit := by
  unfold front at h
  split_ifs at h with h1 h2 h3
  injection h with hbody hrest
  set n := ofBigEndian (bs.take headerSize)
  have hlen : body.length = n := by rw [← hbody, List.length_take]; omega
  have hhead : bigEndian headerSize n = bs.take headerSize :=
    bigEndian_ofBigEndian_take (Nat.not_lt.mp h1)
  refine ⟨?_, by omega⟩
  rw [wrap, hlen, hhead, ← hbody, ← hrest, List.append_assoc, List.take_append_drop,
    List.take_append_drop]

theorem front_append_whole (hl : limit ≤ longest) (h : front limit bs = .whole body rest)
    (more : Bytes) : front limit (bs ++ more) = .whole body (rest ++ more) := by
  obtain ⟨rfl, hb⟩ := eq_wrap_of_front h
  rw [List.append_assoc, front_wrap hb hl]

theorem front_append_tooLong (h : front limit bs = .tooLong) (more : Bytes) :
    front limit (bs ++ more) = .tooLong := by
  unfold front at h ⊢
  split_ifs at h with h1 h2
  have hlen : ¬(bs ++ more).length < headerSize := by rw [List.length_append]; omega
  rw [if_neg hlen, List.take_append_of_le_length (by omega), if_pos h2]

/-- A stream that has no whole frame yet had none before either. -/
theorem short_of_append (hl : limit ≤ longest) {more : Bytes}
    (h : front limit (bs ++ more) = .short) : front limit bs = .short := by
  cases hf : front limit bs with
  | whole body rest => exact absurd (h.symm.trans (front_append_whole hl hf more)) nofun
  | tooLong => exact absurd (h.symm.trans (front_append_tooLong hf more)) nofun
  | short => rfl

theorem length_wrap (body : Bytes) : (wrap body).length = headerSize + body.length := by
  rw [wrap, List.length_append, length_bigEndian]

/-- A whole frame at the front of a part of one frame is that frame, and the part is all of it. -/
theorem whole_of_prefix {whole : Bytes} (hw : whole.length ≤ longest) (hp : bs <+: wrap whole)
    (hl : limit ≤ longest) (h : front limit bs = .whole body rest) :
    body = whole ∧ rest = [] ∧ bs = wrap whole := by
  obtain ⟨more, hmore⟩ := hp
  obtain ⟨hbs, hb⟩ := eq_wrap_of_front h
  -- Both are whole frames at the front of one stream when the limit is as wide as it can be.
  have h1 : front longest (wrap whole) = .whole body (rest ++ more) := by
    rw [← hmore, hbs, List.append_assoc]
    exact front_wrap (Nat.le_trans hb hl) (Nat.le_refl _) _
  have h2 : front longest (wrap whole) = .whole whole [] := by
    have := front_wrap hw (Nat.le_refl _) []
    rwa [List.append_nil] at this
  rw [h2] at h1
  injection h1 with hbody hnil
  have hrest : rest = [] := (List.append_eq_nil_iff.mp hnil.symm).1
  exact ⟨hbody.symm, hrest, by rw [hbs, hrest, List.append_nil, hbody]⟩

end Frame

/-! ### Frames of messages -/

namespace Message

/-- The frame of a message. -/
def frame (m : Message) : Bytes := Frame.wrap m.toBody

theorem frame_ne_nil (m : Message) : m.frame ≠ [] := by
  rw [← List.length_pos_iff, frame, Frame.length_wrap]
  exact Nat.add_pos_left (by decide) _

theorem ofBody_toBody_of_le {m : Message} (h : m.toBody.length ≤ Frame.longest) :
    ofBody m.toBody = .ok m := by
  refine ofBody_toBody (writable_of_length (Nat.lt_of_le_of_lt h ?_))
  decide

/-- A body that was read as a message is one. -/
theorem ofBody_of_map {body : Bytes} {m : Message}
    (h : (ofBody body).map some = .ok (some m)) : ofBody body = .ok m := by
  cases hm : ofBody body with
  | ok m' =>
    rw [hm] at h
    exact congrArg Except.ok (Option.some.inj (Except.ok.inj h))
  | error e =>
    rw [hm] at h
    cases h

theorem front_frame {m : Message} {limit : Nat} (h : m.toBody.length ≤ limit)
    (hl : limit ≤ Frame.longest) : Frame.front limit m.frame = .whole m.toBody [] := by
  have hw := Frame.front_wrap h hl []
  rwa [List.append_nil] at hw

end Message

namespace Frame

/-! ### The decoder -/

variable {limit : Nat} {bs body rest : Bytes}

namespace Decoder

/-- The stream that a decoder still has before it: a length that it has taken off is put back. -/
def stream (d : Decoder) (buffer : Bytes) : Bytes :=
  (match d.awaited with
    | none => []
    | some n => bigEndian headerSize n) ++ buffer

/-- No length goes beyond the four bytes, and the awaited one is within the limit. -/
structure Sound (d : Decoder) : Prop where
  limit_le : d.limit ≤ longest
  awaited_le : ∀ n, d.awaited = some n → n ≤ d.limit

theorem sound_fresh (setting : Nat) : (fresh setting).Sound :=
  ⟨limitOf_le setting, fun _ h => nomatch h⟩

theorem stream_append (d : Decoder) (buffer more : Bytes) :
    d.stream (buffer ++ more) = d.stream buffer ++ more := (List.append_assoc ..).symm

theorem Sound.forget {d : Decoder} (hd : d.Sound) : Sound { d with awaited := none } :=
  ⟨hd.limit_le, fun _ h => nomatch h⟩

/-- What a step that gives no message leaves behind: the same stream, and a decoder that is still in
order. -/
structure Stays (d : Decoder) (buffer : Bytes) (d' : Decoder) (buffer' : Bytes) : Prop where
  sound : d'.Sound
  limit : d'.limit = d.limit
  stream : d'.stream buffer' = d.stream buffer

variable {d : Decoder} {buffer : Bytes}

theorem stream_of_awaited {n : Nat} (ha : d.awaited = some n) :
    d.stream buffer = bigEndian headerSize n ++ buffer := by
  rw [stream, ha]

theorem stream_of_none (ha : d.awaited = none) : d.stream buffer = buffer := by
  rw [stream, ha, List.nil_append]

theorem decode_of_awaited {n : Nat} (ha : d.awaited = some n) :
    d.decode buffer = d.takeBody n buffer := by
  rw [decode, ha]

theorem decode_of_none (ha : d.awaited = none) :
    d.decode buffer =
      if buffer.length < headerSize then (.ok none, d, buffer)
      else if d.limit < ofBigEndian (buffer.take headerSize) then (.error .frameTooBig, d, buffer)
      else d.takeBody (ofBigEndian (buffer.take headerSize)) (buffer.drop headerSize) := by
  rw [decode, ha]

theorem takeBody_of_le {n : Nat} (h : n ≤ buffer.length) :
    d.takeBody n buffer =
      ((Message.ofBody (buffer.take n)).map some, { d with awaited := none }, buffer.drop n) :=
  if_pos h

theorem takeBody_of_lt {n : Nat} (h : buffer.length < n) :
    d.takeBody n buffer = (.ok none, { d with awaited := some n }, buffer) :=
  if_neg (Nat.not_le.mpr h)

theorem decode_whole (hd : d.Sound) (h : front d.limit (d.stream buffer) = .whole body rest) :
    d.decode buffer = ((Message.ofBody body).map some, { d with awaited := none }, rest) := by
  cases ha : d.awaited with
  | some n =>
    rw [stream_of_awaited ha, front_header (hd.awaited_le n ha) hd.limit_le] at h
    split_ifs at h with hlt
    injection h with hbody hrest
    rw [decode_of_awaited ha, takeBody_of_le (Nat.not_lt.mp hlt), hbody, hrest]
  | none =>
    rw [stream_of_none ha, front] at h
    split_ifs at h with h1 h2 h3
    injection h with hbody hrest
    rw [decode_of_none ha, if_neg h1, if_neg h2, takeBody_of_le (Nat.not_lt.mp h3), hbody, hrest]

/-- A length that was taken off is within the limit. -/
theorem Sound.awaited_of_tooLong (hd : d.Sound)
    (h : front d.limit (d.stream buffer) = .tooLong) : d.awaited = none := by
  cases ha : d.awaited with
  | some n =>
    rw [stream_of_awaited ha, front_header (hd.awaited_le n ha) hd.limit_le] at h
    split_ifs at h
  | none => rfl

theorem decode_tooLong (hd : d.Sound) (h : front d.limit (d.stream buffer) = .tooLong) :
    d.decode buffer = (.error .frameTooBig, d, buffer) := by
  have ha := hd.awaited_of_tooLong h
  rw [stream_of_none ha, front] at h
  split_ifs at h with h1 h2
  rw [decode_of_none ha, if_neg h1, if_pos h2]

/-- A decoder over a stream that does not begin with a whole frame, and its buffer: a length that is
all there and that the limit allows has been taken off. -/
def resting (limit : Nat) (rest : Bytes) : Decoder × Bytes :=
  if rest.length < headerSize ∨ limit < ofBigEndian (rest.take headerSize) then (⟨limit, none⟩, rest)
  else (⟨limit, some (ofBigEndian (rest.take headerSize))⟩, rest.drop headerSize)

theorem limit_resting (limit : Nat) (rest : Bytes) : (resting limit rest).1.limit = limit := by
  unfold resting
  split_ifs <;> rfl

theorem stream_resting (limit : Nat) (rest : Bytes) :
    (resting limit rest).1.stream (resting limit rest).2 = rest := by
  unfold resting
  split_ifs with h
  · exact stream_of_none rfl
  · rw [stream_of_awaited rfl, bigEndian_ofBigEndian_take (by omega), List.take_append_drop]

theorem sound_resting (hl : limit ≤ longest) (rest : Bytes) : (resting limit rest).1.Sound := by
  unfold resting
  split_ifs with h
  · exact ⟨hl, fun _ hn => nomatch hn⟩
  · refine ⟨hl, ?_⟩
    rintro n hn
    obtain rfl := Option.some.inj hn
    show ofBigEndian (rest.take headerSize) ≤ limit
    omega

theorem decode_of_short (hd : d.Sound) (h : front d.limit (d.stream buffer) = .short) :
    d.decode buffer = (.ok none, resting d.limit (d.stream buffer)) := by
  cases ha : d.awaited with
  | some n =>
    have hn := hd.awaited_le n ha
    have hread : ofBigEndian (bigEndian headerSize n) = n :=
      ofBigEndian_bigEndian (longest_lt (Nat.le_trans hn hd.limit_le))
    have hlen : (bigEndian headerSize n).length = headerSize := length_bigEndian ..
    rw [stream_of_awaited ha] at h ⊢
    rw [front_header hn hd.limit_le] at h
    split_ifs at h with hlt
    rw [decode_of_awaited ha, takeBody_of_lt hlt, resting, List.take_left' hlen,
      List.drop_left' hlen, hread, if_neg (by rw [List.length_append, hlen]; omega)]
  | none =>
    rw [stream_of_none ha] at h ⊢
    rw [front] at h
    rw [decode_of_none ha, resting]
    split_ifs at h with h1 h2 h3
    · rw [if_pos h1, if_pos (.inl h1), ← ha]
    · rw [if_neg h1, if_neg h2, takeBody_of_lt h3, if_neg (by omega)]

theorem decode_short (hd : d.Sound) (h : front d.limit (d.stream buffer) = .short) :
    ∃ d' buffer', d.decode buffer = (.ok none, d', buffer') ∧ Stays d buffer d' buffer' :=
  ⟨_, _, decode_of_short hd h, sound_resting hd.limit_le _, limit_resting .., stream_resting ..⟩

end Decoder

end Frame

end SumCluster.Wire
