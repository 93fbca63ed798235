import SumCluster.Proofs.Wire.Chunking

/-!
Messages written one after the other. Each is written whole or not at all, so one that is refused
takes nothing from the others: what has been written is a frame for each message that fits. Main
statement: a decoder whose limit is no smaller reads these messages back, in order, and nothing is
left over.
-/

namespace SumCluster.Wire.Frame

variable {limit : Nat} {ms : List Message}

/-! ### Writing -/

theorem write_of_le {m : Message} (h : m.toBody.length ≤ limit) (buffer : Bytes) :
    (write limit m).run.run buffer = (.ok (), buffer ++ m.frame) := by
  rw [write, if_neg (Nat.not_lt.mpr h)]
  show (Except.ok (), buffer ++ bigEndian headerSize m.toBody.length ++ m.toBody) = _
  rw [List.append_assoc]
  rfl

/-- The length is looked at before anything is written. -/
theorem write_of_lt {m : Message} (h : limit < m.toBody.length) (buffer : Bytes) :
    (write limit m).run.run buffer = (.error .frameTooBig, buffer) := by
  rw [write, if_pos h]
  rfl

/-- Writes one message after the other, and goes on when one is refused. -/
def writeAll (limit : Nat) (ms : List Message) : StateM Bytes (List (Except ProtocolError Unit)) :=
  ms.mapM fun m => (write limit m).run

/-- The messages that fit. -/
def accepted (limit : Nat) (ms : List Message) : List Message :=
  ms.filter fun m => m.toBody.length ≤ limit

/-- What writing a message comes to. -/
def verdict (limit : Nat) (m : Message) : Except ProtocolError Unit :=
  if m.toBody.length ≤ limit then .ok () else .error .frameTooBig

theorem write_eq (limit : Nat) (m : Message) (buffer : Bytes) : (write limit m).run.run buffer =
    (verdict limit m, buffer ++ (accepted limit [m]).flatMap Message.frame) := by
  by_cases h : m.toBody.length ≤ limit
  · simp [write_of_le h, verdict, accepted, h]
  · simp [write_of_lt (Nat.not_le.mp h), verdict, accepted, h]

theorem accepted_cons (limit : Nat) (m : Message) (ms : List Message) :
    accepted limit (m :: ms) = accepted limit [m] ++ accepted limit ms :=
  List.filter_append [m] ms

theorem length_of_mem_accepted {m : Message} (h : m ∈ accepted limit ms) :
    m.toBody.length ≤ limit := by
  simpa using (List.mem_filter.mp h).2

/-- What is written is the frames of the messages that fit. -/
theorem writeAll_eq (limit : Nat) (ms : List Message) (buffer : Bytes) :
    (writeAll limit ms).run buffer =
      (ms.map (verdict limit), buffer ++ (accepted limit ms).flatMap Message.frame) := by
  induction ms generalizing buffer with
  | nil =>
    rw [accepted, List.filter_nil, List.flatMap_nil, List.append_nil]
    rfl
  | cons m ms ih =>
    have hstep : (writeAll limit (m :: ms)).run buffer =
        let (v, buffer) := (write limit m).run.run buffer
        let (vs, buffer) := (writeAll limit ms).run buffer
        (v :: vs, buffer) := by
      simp only [writeAll, List.mapM_cons]
      rfl
    rw [hstep, write_eq]
    simp only [ih, accepted_cons limit m ms, List.flatMap_append, List.append_assoc, List.map_cons]

/-! ### Reading back -/

theorem cuts_frames (hfits : ∀ m ∈ ms, m.toBody.length ≤ limit) :
    Cuts limit (ms.flatMap Message.frame) (ms.map Message.toBody) [] where
  join := by
    rw [List.append_nil, List.flatMap_map]
    rfl
  fit := List.forall_mem_map.mpr hfits
  stop body more _ h := by
    have hlen := congrArg List.length h
    rw [List.length_append, length_wrap, List.length_nil] at hlen
    simp only [headerSize] at hlen
    omega

theorem outcomes_frames (hl : limit ≤ longest) (hfits : ∀ m ∈ ms, m.toBody.length ≤ limit) :
    outcomes limit (ms.flatMap Message.frame) = ms.map fun m => .ok (some m) := by
  have hread : ∀ m ∈ ms, outcome m.toBody = .ok (some m) := by
    rintro m hm
    rw [outcome, Message.ofBody_toBody_of_le (Nat.le_trans (hfits m hm) hl)]
    rfl
  rw [outcomes, cut_of_cuts hl (cuts_frames hfits), refusal_of_short rfl, List.append_nil,
    List.map_map]
  exact List.map_congr_left hread

theorem decodeAll_frames (setting : Nat)
    (hfits : ∀ m ∈ ms, m.toBody.length ≤ limitOf setting) :
    (Decoder.fresh setting).decodeAll (ms.flatMap Message.frame) =
      ⟨ms.map fun m => .ok (some m), Decoder.fresh setting, []⟩ := by
  have hl := limitOf_le setting
  rw [Decoder.decodeAll_eq (Decoder.sound_fresh setting), Decoder.stream_of_none rfl]
  show Decoder.Decoding.mk (outcomes (limitOf setting) _) _ _ = _
  rw [outcomes_frames hl hfits]
  have hcut : cut (Decoder.fresh setting).limit (ms.flatMap Message.frame) = (_, []) :=
    cut_of_cuts hl (cuts_frames hfits)
  rw [hcut]
  rfl

/-- One after the other, messages are written as four big-endian bytes of length and a body each; a
message that is longer than the limit is refused and leaves the buffer as it was, whatever came
before it. Read with a limit that is no smaller, what has been written is the messages that were not
refused, in order, and then there is nothing more. -/
theorem decodeAll_writeAll (hlimit : limit ≤ longest) (ms : List Message) (buffer : Bytes) :
    let written := (accepted limit ms).flatMap fun m =>
      bigEndian headerSize m.toBody.length ++ m.toBody
    (∀ m buffer, (write (limitOf limit) m).run.run buffer =
      if m.toBody.length ≤ limit then
        (.ok (), buffer ++ (bigEndian headerSize m.toBody.length ++ m.toBody))
      else (.error .frameTooBig, buffer)) ∧
    (writeAll (limitOf limit) ms).run buffer = (ms.map (verdict limit), buffer ++ written) ∧
    ∀ setting, limit ≤ setting →
      (Decoder.fresh setting).decodeAll written =
        ⟨(accepted limit ms).map fun m => .ok (some m), Decoder.fresh setting, []⟩ ∧
      (Decoder.fresh setting).decode [] = (.ok none, Decoder.fresh setting, []) := by
  intro written
  have hlim : limitOf limit = limit := Nat.min_eq_left hlimit
  rw [hlim]
  refine ⟨?_, writeAll_eq limit ms buffer, ?_⟩
  · rintro m buffer
    split_ifs with h
    · exact write_of_le h buffer
    · exact write_of_lt (Nat.not_le.mp h) buffer
  · rintro setting hsetting
    have hwider : limit ≤ limitOf setting := Nat.le_min.mpr ⟨hsetting, hlimit⟩
    refine ⟨decodeAll_frames setting ?_, rfl⟩
    rintro m hm
    exact Nat.le_trans (length_of_mem_accepted hm) hwider

/-- A message that fits, one that does not, and the first again. -/
def greetings : List Message := [.handshake ⟨"w"⟩, .handshake ⟨"worker"⟩, .handshake ⟨"w"⟩]

theorem decodeAll_writeAll_greetings :
    3 ≤ longest ∧
    (writeAll (limitOf 3) greetings).run [7] = ([.ok (), .error .frameTooBig, .ok ()],
      [7, 0, 0, 0, 3, 0, 1, 119, 0, 0, 0, 3, 0, 1, 119]) ∧
    (Decoder.fresh 5).decodeAll [0, 0, 0, 3, 0, 1, 119, 0, 0, 0, 3, 0, 1, 119] =
      ⟨[.ok (some (.handshake ⟨"w"⟩)), .ok (some (.handshake ⟨"w"⟩))], Decoder.fresh 5, []⟩ := by
  have hlimit : 3 ≤ longest := by decide
  obtain ⟨-, hwrite, hread⟩ := decodeAll_writeAll hlimit greetings [7]
  obtain ⟨hread, -⟩ := hread 5 (by decide)
  have hverdicts : greetings.map (verdict 3) = [.ok (), .error .frameTooBig, .ok ()] := by decide
  have haccepted : accepted 3 greetings = [.handshake ⟨"w"⟩, .handshake ⟨"w"⟩] := by decide
  have hwritten : (accepted 3 greetings).flatMap
      (fun m => bigEndian headerSize m.toBody.length ++ m.toBody) =
        [0, 0, 0, 3, 0, 1, 119, 0, 0, 0, 3, 0, 1, 119] := by decide
  rw [hwritten, haccepted] at hread
  rw [hwritten, hverdicts] at hwrite
  exact ⟨hlimit, hwrite, hread⟩

end SumCluster.Wire.Frame
