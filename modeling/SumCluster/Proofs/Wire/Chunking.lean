import SumCluster.Proofs.Wire.Front

/-!
How the bytes of a stream are handed to a decoder. A stream is cut into frames, one length and its
body after the other, and a decoder that is asked until it has no more to say hands out what comes
of each body. Main statement: however the stream comes in, the same is handed out up to a length
that is too large and the same is left, and after such a length nothing is handed out any more.
-/

namespace SumCluster.Wire.Frame

variable {limit : Nat} {bs body rest : Bytes}

/-! ### Cutting a stream -/

theorem length_lt_of_front (h : front limit bs = .whole body rest) : rest.length < bs.length := by
  rw [(eq_wrap_of_front h).1, List.length_append, length_wrap]
  simp only [headerSize]
  omega

/-- Cuts a stream into frames: their bodies, and a rest that does not begin with a whole frame. -/
def cut (limit : Nat) (bs : Bytes) : List Bytes × Bytes :=
  match h : front limit bs with
  | .whole body rest =>
    have : rest.length < bs.length := length_lt_of_front h
    (body :: (cut limit rest).1, (cut limit rest).2)
  | _ => ([], bs)
termination_by bs.length

/-- What comes of a body. -/
abbrev outcome (body : Bytes) : Outcome := (Message.ofBody body).map some

/-- What comes of a rest: an error if the length at its front is above the limit. -/
def refusal (limit : Nat) (rest : Bytes) : List Outcome :=
  if headerSize ≤ rest.length ∧ limit < ofBigEndian (rest.take headerSize) then
    [.error .frameTooBig]
  else []

/-- What comes of a stream: an outcome for each body, and that of the rest. -/
def outcomes (limit : Nat) (bs : Bytes) : List Outcome :=
  (cut limit bs).1.map outcome ++ refusal limit (cut limit bs).2

/-- Frame by frame, a stream comes down to one that does not begin with a whole frame. -/
theorem front_induction (limit : Nat) {P : Bytes → Prop}
    (whole : ∀ bs body rest, front limit bs = .whole body rest → P rest → P bs)
    (tooLong : ∀ bs, front limit bs = .tooLong → P bs)
    (short : ∀ bs, front limit bs = .short → P bs) (bs : Bytes) : P bs := by
  induction hn : bs.length using Nat.strongRecOn generalizing bs with
  | _ n ih =>
    cases hf : front limit bs with
    | whole body rest =>
      exact whole bs body rest hf (ih rest.length (hn ▸ length_lt_of_front hf) rest rfl)
    | tooLong => exact tooLong bs hf
    | short => exact short bs hf

theorem cut_of_whole (h : front limit bs = .whole body rest) :
    cut limit bs = (body :: (cut limit rest).1, (cut limit rest).2) := by
  rw [cut]
  split
  · rename_i h'
    obtain ⟨rfl, rfl⟩ := Front.whole.inj (h.symm.trans h')
    rfl
  · rename_i hnot
    exact absurd h (hnot body rest)

theorem cut_of_tooLong (h : front limit bs = .tooLong) : cut limit bs = ([], bs) := by
  rw [cut]
  split
  · rename_i h'
    cases h.symm.trans h'
  · rfl

theorem cut_of_short (h : front limit bs = .short) : cut limit bs = ([], bs) := by
  rw [cut]
  split
  · rename_i h'
    cases h.symm.trans h'
  · rfl

theorem refusal_of_tooLong (h : front limit rest = .tooLong) :
    refusal limit rest = [.error .frameTooBig] := by
  unfold front at h
  split_ifs at h with hshort hbig
  exact if_pos ⟨Nat.not_lt.mp hshort, hbig⟩

theorem refusal_of_short (h : front limit rest = .short) : refusal limit rest = [] := by
  unfold front at h
  split_ifs at h with hshort hbig
  · exact if_neg fun hrest => absurd hrest.1 (Nat.not_le.mpr hshort)
  · exact if_neg fun hrest => hbig hrest.2

theorem outcomes_of_whole (h : front limit bs = .whole body rest) :
    outcomes limit bs = outcome body :: outcomes limit rest := by
  rw [outcomes, cut_of_whole h, List.map_cons, List.cons_append, outcomes]

theorem outcomes_of_tooLong (h : front limit bs = .tooLong) :
    outcomes limit bs = [.error .frameTooBig] := by
  rw [outcomes, cut_of_tooLong h, refusal_of_tooLong h, List.map_nil, List.nil_append]

theorem outcomes_of_short (h : front limit bs = .short) : outcomes limit bs = [] := by
  rw [outcomes, cut_of_short h, refusal_of_short h, List.map_nil, List.nil_append]

/-- A stream is made of frames that fit, and a rest that does not begin with another. -/
structure Cuts (limit : Nat) (bs : Bytes) (bodies : List Bytes) (rest : Bytes) : Prop where
  join : bodies.flatMap wrap ++ rest = bs
  fit : ∀ body ∈ bodies, body.length ≤ limit
  stop : ∀ body more, body.length ≤ limit → rest ≠ wrap body ++ more

theorem Cuts.nil (hl : limit ≤ longest) (h : ∀ body rest, front limit bs ≠ .whole body rest) :
    Cuts limit bs [] bs where
  join := rfl
  fit _ hmem := nomatch hmem
  stop body more hfits := by
    rintro rfl
    exact h body more (front_wrap hfits hl more)

theorem Cuts.cons (h : front limit bs = .whole body rest) {bodies : List Bytes} {last : Bytes}
    (hrest : Cuts limit rest bodies last) : Cuts limit bs (body :: bodies) last := by
  obtain ⟨hbs, hfits⟩ := eq_wrap_of_front h
  refine ⟨?_, List.forall_mem_cons.mpr ⟨hfits, hrest.fit⟩, hrest.stop⟩
  rw [List.flatMap_cons, List.append_assoc, hrest.join, hbs]

theorem cuts_cut (hl : limit ≤ longest) (bs : Bytes) :
    Cuts limit bs (cut limit bs).1 (cut limit bs).2 := by
  induction bs using front_induction limit with
  | whole bs body rest hf ih => rw [cut_of_whole hf]; exact Cuts.cons hf ih
  | tooLong bs hf => rw [cut_of_tooLong hf]; exact Cuts.nil hl (by simp [hf])
  | short bs hf => rw [cut_of_short hf]; exact Cuts.nil hl (by simp [hf])

/-- A stream that goes on is cut at the same places; only the rest may come to be cut further. -/
theorem cut_append (hl : limit ≤ longest) (bs more : Bytes) :
    cut limit (bs ++ more) = ((cut limit bs).1 ++ (cut limit ((cut limit bs).2 ++ more)).1,
      (cut limit ((cut limit bs).2 ++ more)).2) := by
  induction bs using front_induction limit with
  | whole bs body rest hf ih =>
    rw [cut_of_whole hf, cut_of_whole (front_append_whole hl hf more), ih]
    rfl
  | tooLong bs hf => rw [cut_of_tooLong hf]; rfl
  | short bs hf => rw [cut_of_short hf]; rfl

theorem outcomes_append (hl : limit ≤ longest) (bs more : Bytes) :
    outcomes limit (bs ++ more) =
      (cut limit bs).1.map outcome ++ outcomes limit ((cut limit bs).2 ++ more) := by
  rw [outcomes, cut_append hl, outcomes, List.map_append, List.append_assoc]

theorem front_cut (limit : Nat) (bs : Bytes) :
    front limit (cut limit bs).2 = .tooLong ∨ front limit (cut limit bs).2 = .short := by
  induction bs using front_induction limit with
  | whole bs body rest hf ih => rw [cut_of_whole hf]; exact ih
  | tooLong bs hf => rw [cut_of_tooLong hf]; exact .inl hf
  | short bs hf => rw [cut_of_short hf]; exact .inr hf

/-- There is one way to cut a stream. -/
theorem cut_of_cuts (hl : limit ≤ longest) {bodies : List Bytes}
    (h : Cuts limit bs bodies rest) : cut limit bs = (bodies, rest) := by
  obtain ⟨rfl, hfits, hstop⟩ := h
  induction bodies with
  | nil =>
    rw [List.flatMap_nil, List.nil_append]
    cases hf : front limit rest with
    | whole body more =>
      obtain ⟨hrest, hbody⟩ := eq_wrap_of_front hf
      exact absurd hrest (hstop body more hbody)
    | tooLong => exact cut_of_tooLong hf
    | short => exact cut_of_short hf
  | cons body bodies ih =>
    obtain ⟨hbody, hbodies⟩ := List.forall_mem_cons.mp hfits
    rw [List.flatMap_cons, List.append_assoc, cut_of_whole (front_wrap hbody hl _), ih hbodies]

/-! ### Decoding as far as it goes -/

theorem outcome_ne_frameTooBig (body : Bytes) : outcome body ≠ .error .frameTooBig := by
  unfold outcome Message.ofBody
  split <;> simp [Except.map, ProtocolError.undecodable, ProtocolError.trailing,
    ProtocolError.frameTooBig]

theorem outcome_ne_none (body : Bytes) : outcome body ≠ .ok none := by
  unfold outcome
  cases Message.ofBody body <;> simp [Except.map]

namespace Decoder

/-- A decoder with its buffer, and what it has handed out. -/
structure Decoding where
  handed : List Outcome
  decoder : Decoder
  buffer : Bytes

/-- With something that was handed out before. -/
def Decoding.after (os : List Outcome) (r : Decoding) : Decoding :=
  { r with handed := os ++ r.handed }

/-- An attempt that hands something out leaves less of the stream. -/
theorem length_stream_lt {d d' : Decoder} {buffer rest : Bytes} {o : Outcome}
    (h : d.decode buffer = (o, d', rest)) (hnone : o ≠ .ok none)
    (hbig : o ≠ .error .frameTooBig) : (d'.stream rest).length < (d.stream buffer).length := by
  have taken {n : Nat} {buffer : Bytes} (h : d.takeBody n buffer = (o, d', rest)) :
      (d'.stream rest).length ≤ buffer.length := by
    unfold takeBody at h
    split_ifs at h with hn
    · obtain ⟨-, h⟩ := Prod.mk.inj h
      obtain ⟨rfl, rfl⟩ := Prod.mk.inj h
      simp [stream]
    · exact absurd (Prod.mk.inj h).1.symm hnone
  cases ha : d.awaited with
  | some n =>
    rw [decode_of_awaited ha] at h
    have hle := taken h
    rw [stream_of_awaited ha, List.length_append, length_bigEndian]
    simp only [headerSize]
    omega
  | none =>
    rw [decode_of_none ha] at h
    rw [stream_of_none ha]
    split_ifs at h with h1 h2
    · exact absurd (Prod.mk.inj h).1.symm hnone
    · exact absurd (Prod.mk.inj h).1.symm hbig
    · have hle := taken h
      rw [List.length_drop] at hle
      simp only [headerSize] at h1 hle
      omega

/-- Decodes until there is nothing to hand out yet or a length is too large. -/
def decodeAll (d : Decoder) (buffer : Bytes) : Decoding :=
  let step := d.decode buffer
  if _ : step.1 = .ok none then ⟨[], step.2.1, step.2.2⟩
  else if _ : step.1 = .error .frameTooBig then ⟨[step.1], step.2.1, step.2.2⟩
  else (decodeAll step.2.1 step.2.2).after [step.1]
termination_by (d.stream buffer).length
decreasing_by exact length_stream_lt rfl ‹_› ‹_›

/-- A chunk comes in and is decoded as far as it goes. -/
def Decoding.feed (r : Decoding) (chunk : Bytes) : Decoding :=
  (r.decoder.decodeAll (r.buffer ++ chunk)).after r.handed

/-- One chunk after the other comes in. -/
def Decoding.feedAll (r : Decoding) (chunks : List Bytes) : Decoding := chunks.foldl feed r

/-! ### What a decoder is left with -/

theorem resting_of_tooLong (h : front limit rest = .tooLong) :
    resting limit rest = (⟨limit, none⟩, rest) := by
  unfold front at h
  split_ifs at h with h1 h2
  exact if_pos (.inr h2)

variable {d : Decoder} {buffer : Bytes}

theorem decode_of_tooLong (hd : d.Sound) (h : front d.limit (d.stream buffer) = .tooLong) :
    d.decode buffer = (.error .frameTooBig, resting d.limit (d.stream buffer)) := by
  have ha := hd.awaited_of_tooLong h
  rw [decode_tooLong hd h, resting_of_tooLong h, stream_of_none ha, ← ha]

/-! #### As far as it goes -/

variable {left : Decoder × Bytes}

theorem decodeAll_of_none (h : d.decode buffer = (.ok none, left)) :
    d.decodeAll buffer = ⟨[], left.1, left.2⟩ := by
  rw [decodeAll, dif_pos (by rw [h]), h]

theorem decodeAll_of_frameTooBig (h : d.decode buffer = (.error .frameTooBig, left)) :
    d.decodeAll buffer = ⟨[.error .frameTooBig], left.1, left.2⟩ := by
  rw [decodeAll, dif_neg (by rw [h]; simp), dif_pos (by rw [h]), h]

theorem decodeAll_of_outcome (h : d.decode buffer = (outcome body, left)) :
    d.decodeAll buffer = (left.1.decodeAll left.2).after [outcome body] := by
  rw [decodeAll, dif_neg (by rw [h]; exact outcome_ne_none body),
    dif_neg (by rw [h]; exact outcome_ne_frameTooBig body), h]

/-- What decoding comes to is told by the limit and the stream alone. -/
theorem decodeAll_eq (hd : d.Sound) : d.decodeAll buffer =
    ⟨outcomes d.limit (d.stream buffer), (resting d.limit (cut d.limit (d.stream buffer)).2).1,
      (resting d.limit (cut d.limit (d.stream buffer)).2).2⟩ := by
  obtain ⟨limit, hlimit⟩ : ∃ limit, d.limit = limit := ⟨_, rfl⟩
  rw [hlimit]
  induction hs : d.stream buffer using front_induction limit generalizing d buffer with
  | whole bs body rest hf ih =>
    have hstep := decode_whole hd (by rw [hlimit, hs, hf])
    have hrest : decodeAll { d with awaited := none } rest = _ :=
      ih hd.forget hlimit (stream_of_none rfl)
    rw [decodeAll_of_outcome hstep, hrest, outcomes_of_whole hf, cut_of_whole hf]
    rfl
  | tooLong bs hf =>
    have hstep := decode_of_tooLong hd (by rw [hlimit, hs, hf])
    rw [hlimit, hs] at hstep
    rw [decodeAll_of_frameTooBig hstep, outcomes_of_tooLong hf, cut_of_tooLong hf]
  | short bs hf =>
    have hstep := decode_of_short hd (by rw [hlimit, hs, hf])
    rw [hlimit, hs] at hstep
    rw [decodeAll_of_none hstep, outcomes_of_short hf, cut_of_short hf]

/-! ### Chunk after chunk -/

/-- The outcomes up to the first length that is too large. -/
def untilTooBig : List Outcome → List Outcome
  | [] => []
  | o :: os => if o = .error .frameTooBig then [o] else o :: untilTooBig os

theorem untilTooBig_append_of_mem {os : List Outcome}
    (h : .error .frameTooBig ∈ untilTooBig os) (more : List Outcome) :
    untilTooBig (os ++ more) = untilTooBig os := by
  induction os with
  | nil => cases h
  | cons o os ih =>
    rw [List.cons_append, untilTooBig, untilTooBig]
    rw [untilTooBig] at h
    split_ifs at h ⊢ with ho
    · rfl
    · rcases List.mem_cons.mp h with rfl | h
      · exact absurd rfl ho
      · rw [ih h]

theorem untilTooBig_append_of_not_mem {os : List Outcome}
    (h : .error .frameTooBig ∉ untilTooBig os) (more : List Outcome) :
    untilTooBig (os ++ more) = untilTooBig os ++ untilTooBig more := by
  induction os with
  | nil => rfl
  | cons o os ih =>
    rw [List.cons_append, untilTooBig, untilTooBig]
    rw [untilTooBig] at h
    split_ifs at h ⊢ with ho
    · exact absurd (by rw [ho]; exact List.mem_singleton_self _) h
    · rw [ih (List.not_mem_of_not_mem_cons h), List.cons_append]

theorem mem_untilTooBig {os : List Outcome} :
    .error .frameTooBig ∈ untilTooBig os ↔ .error .frameTooBig ∈ os := by
  induction os with
  | nil => rfl
  | cons o os ih =>
    rw [untilTooBig]
    by_cases ho : o = .error .frameTooBig
    · simp [ho]
    · rw [if_neg ho, List.mem_cons, List.mem_cons, ih]

theorem not_mem_bodies (bodies : List Bytes) :
    .error .frameTooBig ∉ bodies.map outcome := by
  intro h
  obtain ⟨body, -, hbody⟩ := List.mem_map.mp h
  exact outcome_ne_frameTooBig body hbody

theorem untilTooBig_outcomes (limit : Nat) (bs : Bytes) :
    untilTooBig (outcomes limit bs) = outcomes limit bs := by
  induction bs using front_induction limit with
  | whole bs body rest hf ih =>
    rw [outcomes_of_whole hf, untilTooBig, if_neg (outcome_ne_frameTooBig body), ih]
  | tooLong bs hf => rw [outcomes_of_tooLong hf, untilTooBig, if_pos rfl]
  | short bs hf => rw [outcomes_of_short hf, untilTooBig]

/-- A stream has come in, and what was handed out and what is left are what comes of it. -/
structure Follows (limit : Nat) (stream : Bytes) (r : Decoding) : Prop where
  handed : untilTooBig r.handed = outcomes limit stream
  left : (r.decoder, r.buffer) = resting limit (cut limit stream).2

theorem follows_fresh (setting : Nat) : Follows (limitOf setting) [] ⟨[], fresh setting, []⟩ := by
  have hshort : front (limitOf setting) [] = .short := rfl
  refine ⟨?_, ?_⟩
  · rw [outcomes_of_short hshort, untilTooBig]
  · rw [cut_of_short hshort]
    rfl

/-- A chunk that comes in goes behind the rest. -/
theorem feed_eq (hl : limit ≤ longest) {r : Decoding} (h : (r.decoder, r.buffer) = resting limit rest)
    (chunk : Bytes) : r.feed chunk = ⟨r.handed ++ outcomes limit (rest ++ chunk),
      (resting limit (cut limit (rest ++ chunk)).2).1,
      (resting limit (cut limit (rest ++ chunk)).2).2⟩ := by
  have hdecoder : r.decoder = (resting limit rest).1 := congrArg Prod.fst h
  have hbuffer : r.buffer = (resting limit rest).2 := congrArg Prod.snd h
  have hstream : (resting limit rest).1.stream ((resting limit rest).2 ++ chunk) =
      rest ++ chunk := by
    rw [stream_append, stream_resting]
  rw [Decoding.feed, hdecoder, hbuffer, decodeAll_eq (sound_resting hl rest), limit_resting, hstream]
  rfl

theorem Follows.feed (hl : limit ≤ longest) {stream : Bytes} {r : Decoding}
    (h : Follows limit stream r) (chunk : Bytes) :
    Follows limit (stream ++ chunk) (r.feed chunk) := by
  rw [feed_eq hl h.left]
  refine ⟨?_, by rw [cut_append hl stream chunk]⟩
  have hhanded : untilTooBig r.handed = (cut limit stream).1.map outcome ++
      refusal limit (cut limit stream).2 := h.handed
  rw [outcomes_append hl stream chunk]
  rcases front_cut limit stream with htoo | hshort
  · -- The error has been handed out, so nothing counts that is handed out from here on.
    rw [refusal_of_tooLong htoo] at hhanded
    rw [outcomes_of_tooLong (front_append_tooLong htoo chunk), ← hhanded]
    exact untilTooBig_append_of_mem (by simp [hhanded]) _
  · rw [refusal_of_short hshort, List.append_nil] at hhanded
    have hbodies : .error .frameTooBig ∉ untilTooBig r.handed := by
      rw [hhanded]
      exact not_mem_bodies _
    have hmore := untilTooBig_append_of_not_mem hbodies
      (outcomes limit ((cut limit stream).2 ++ chunk))
    rw [hhanded, untilTooBig_outcomes] at hmore
    exact hmore

theorem Follows.feedAll (hl : limit ≤ longest) (chunks : List Bytes) {stream : Bytes} {r : Decoding}
    (h : Follows limit stream r) : Follows limit (stream ++ chunks.flatten) (r.feedAll chunks) := by
  induction chunks generalizing stream r with
  | nil => rwa [List.flatten_nil, List.append_nil]
  | cons chunk chunks ih =>
    have hrest := ih (h.feed hl chunk)
    rwa [List.append_assoc] at hrest

/-- Before a length that is too large a decoder stays where it is. -/
theorem feedAll_of_tooLong (hl : limit ≤ longest) (later : List Bytes) {r : Decoding}
    (h : (r.decoder, r.buffer) = resting limit rest) (htoo : front limit rest = .tooLong) :
    r.feedAll later = ⟨r.handed ++ later.map fun _ => .error .frameTooBig, r.decoder,
      r.buffer ++ later.flatten⟩ := by
  induction later generalizing rest r with
  | nil => simp [Decoding.feedAll]
  | cons chunk later ih =>
    have hmore := front_append_tooLong htoo chunk
    have hfeed := feed_eq hl h chunk
    rw [outcomes_of_tooLong hmore, cut_of_tooLong hmore, resting_of_tooLong hmore] at hfeed
    rw [resting_of_tooLong htoo] at h
    obtain ⟨hdecoder, hbuffer⟩ := Prod.mk.inj h
    have hlater := ih (r := r.feed chunk) (by rw [hfeed, resting_of_tooLong hmore]) hmore
    rw [Decoding.feedAll, List.foldl_cons, ← Decoding.feedAll, hlater, hfeed, hdecoder, hbuffer]
    simp

/-- However a stream comes in, a decoder hands out the same up to a length that is too large, and is
left in the same state before the same bytes. What it hands out is what comes of the bodies that the
stream is made of, each for itself and none for another, then an error if the rest begins with a
length above the limit. After such a length every attempt is refused again, and what comes in stays
in the buffer. -/
theorem feedAll_decodeAll (setting : Nat) (chunks : List Bytes) :
    let limit := limitOf setting
    let fed := Decoding.feedAll ⟨[], fresh setting, []⟩ chunks
    let once := (fresh setting).decodeAll chunks.flatten
    (untilTooBig fed.handed = once.handed ∧ fed.decoder = once.decoder ∧
      fed.buffer = once.buffer) ∧
    (∃ bodies rest, Cuts limit chunks.flatten bodies rest) ∧
    (∀ bodies rest, Cuts limit chunks.flatten bodies rest →
      once.handed = bodies.map outcome ++ refusal limit rest) ∧
    (.error .frameTooBig ∈ fed.handed → ∀ later,
      fed.feedAll later = ⟨fed.handed ++ later.map fun _ => .error .frameTooBig, fed.decoder,
        fed.buffer ++ later.flatten⟩) := by
  intro limit fed once
  have hl : limit ≤ longest := limitOf_le setting
  have hfed : Follows limit chunks.flatten fed := (follows_fresh setting).feedAll hl chunks
  have honce : once = _ := decodeAll_eq (sound_fresh setting)
  rw [stream_of_none rfl] at honce
  refine ⟨⟨?_, ?_, ?_⟩, ⟨_, _, cuts_cut hl chunks.flatten⟩, ?_, ?_⟩
  · rw [honce, hfed.handed]
    rfl
  · rw [honce]
    exact congrArg Prod.fst hfed.left
  · rw [honce]
    exact congrArg Prod.snd hfed.left
  · rintro bodies rest hcuts
    have hcut : cut (fresh setting).limit chunks.flatten = (bodies, rest) := cut_of_cuts hl hcuts
    rw [honce, outcomes, hcut]
    rfl
  · intro hbig later
    have hmem := mem_untilTooBig.mpr hbig
    rw [hfed.handed] at hmem
    rcases front_cut limit chunks.flatten with htoo | hshort
    · exact feedAll_of_tooLong hl later hfed.left htoo
    · rw [outcomes, refusal_of_short hshort, List.append_nil] at hmem
      exact absurd hmem (not_mem_bodies _)

/-- A body as long as the limit allows, one that is no message and a length that is too large, with
cuts inside the lengths and the first body. -/
def pieces : List Bytes := [[0, 0], [], [0, 2, 0], [0, 0, 0, 0, 0, 0, 0], [0, 3, 9]]

theorem feedAll_decodeAll_pieces :
    let fed := Decoding.feedAll ⟨[], fresh 2, []⟩ pieces
    untilTooBig fed.handed =
      [.ok (some (.handshake ⟨""⟩)), .error (.undecodable 0), .error .frameTooBig] ∧
    fed.feedAll [[7], []] =
      ⟨fed.handed ++ [.error .frameTooBig, .error .frameTooBig], fed.decoder, fed.buffer ++ [7]⟩ := by
  intro fed
  obtain ⟨⟨hfed, -⟩, -, honce, hlater⟩ := feedAll_decodeAll 2 pieces
  have hbig : front (limitOf 2) [0, 0, 0, 3, 9] = .tooLong := rfl
  have hcuts : Cuts (limitOf 2) pieces.flatten [[0, 0], []] [0, 0, 0, 3, 9] :=
    Cuts.cons rfl (Cuts.cons rfl (Cuts.nil (limitOf_le 2) (by simp [hbig])))
  have hhanded : untilTooBig fed.handed =
      [.ok (some (.handshake ⟨""⟩)), .error (.undecodable 0), .error .frameTooBig] := by
    have hmessage : outcome [0, 0] = .ok (some (.handshake ⟨""⟩)) := by decide
    have hbad : outcome [] = .error (.undecodable 0) := rfl
    rw [hfed, honce _ _ hcuts, refusal_of_tooLong hbig, List.map_cons, List.map_cons, hmessage, hbad]
    rfl
  refine ⟨hhanded, hlater ?_ [[7], []]⟩
  rw [← mem_untilTooBig, hhanded]
  decide

end Decoder

end SumCluster.Wire.Frame
