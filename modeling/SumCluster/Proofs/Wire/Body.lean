import SumCluster.Proofs.Wire.Form

/-!
What is written is a form of the message, so it is read back, whatever follows it; and the body is
longer than its values are many. The lengths of texts and lists have to fit eight bytes, which those
of a body that fits a frame do. Main statement: a body is read as the message that it was made of,
nothing may come behind it, and no part of it is a body.
-/

namespace SumCluster.Wire

open Text (natText)

namespace Body

/-! ### Integers -/

theorem encodeInt_mem (v : Int32) : encodeInt v ∈ intForms v := Varint.form_encode (zigzag_lt v)

theorem length_encodeInt_pos (v : Int32) : 0 < (encodeInt v).length :=
  Varint.length_encode_pos _

theorem length_encodeInt_le (v : Int32) : (encodeInt v).length ≤ 5 :=
  Varint.length_encode_le_five (zigzag_lt v)

/-! ### Lists of integers -/

theorem flatMap_mem : ∀ vs : List Int32, vs.flatMap encodeInt ∈ manyForms vs
  | [] => Language.nil_mem_one
  | v :: vs => Language.append_mem_mul (encodeInt_mem v) (flatMap_mem vs)

theorem encodeInts_mem {vs : List Int32} (h : vs.length < Word.limit64) :
    encodeInts vs ∈ intsForms vs :=
  Language.append_mem_mul (Varint.form_encode (w := .word64) h) (flatMap_mem vs)

theorem length_le_flatMap : ∀ vs : List Int32, vs.length ≤ (vs.flatMap encodeInt).length
  | [] => Nat.le_refl 0
  | v :: vs => by
    have h := length_encodeInt_pos v
    have ih := length_le_flatMap vs
    rw [List.length_cons, List.flatMap_cons, List.length_append]
    omega

theorem length_lt_encodeInts (vs : List Int32) : vs.length < (encodeInts vs).length := by
  have h := Varint.length_encode_pos vs.length
  have h' := length_le_flatMap vs
  rw [encodeInts, List.length_append]
  omega

theorem length_flatMap_le : ∀ vs : List Int32, (vs.flatMap encodeInt).length ≤ 5 * vs.length
  | [] => Nat.zero_le _
  | v :: vs => by
    have hv := length_encodeInt_le v
    have ih := length_flatMap_le vs
    rw [List.length_cons, List.flatMap_cons, List.length_append]
    omega

theorem length_encodeInts_le (vs : List Int32) : (encodeInts vs).length ≤ 9 + 5 * vs.length := by
  have h := Varint.length_encode_le vs.length
  have h' := length_flatMap_le vs
  rw [encodeInts, List.length_append]
  omega

/-! ### Texts -/

theorem encodeText_mem {s : String} (h : (utf8 s).length < Word.limit64) :
    encodeText s ∈ textForms s :=
  Language.append_mem_mul (Varint.form_encode (w := .word64) h) rfl

theorem length_lt_encodeText (s : String) : (utf8 s).length < (encodeText s).length := by
  have h := Varint.length_encode_pos (utf8 s).length
  rw [encodeText, List.length_append]
  omega

end Body

/-! ### Messages -/

namespace Message

/-- The lengths of the lists and texts of a message fit eight bytes. -/
def Writable : Message → Prop
  | handshake h => (Body.utf8 h.workerId).length < Word.limit64
  | taskRequest t => t.values.length < Word.limit64
  | subtaskRequest s => s.values.length < Word.limit64
  | subtaskResult r => (Body.utf8 r.workerId).length < Word.limit64
  | clientResponse _ => True
  | errorResponse e => (Body.utf8 e.message).length < Word.limit64

theorem encodeFields_mem {m : Message} (h : m.Writable) :
    Body.encodeFields m ∈ Body.fieldForms m := by
  cases m with
  | handshake h' => exact Body.encodeText_mem h
  | taskRequest t =>
    exact Language.append_mem_mul (Body.encodeInts_mem h) (Body.encodeInt_mem t.delayMs)
  | subtaskRequest s =>
    exact Language.append_mem_mul (Body.encodeInts_mem h) (Body.encodeInt_mem s.delayMs)
  | subtaskResult r =>
    exact Language.append_mem_mul (Body.encodeInt_mem r.sum) (Body.encodeText_mem h)
  | clientResponse r =>
    exact Language.append_mem_mul
      (Language.append_mem_mul (Body.encodeInt_mem r.sum) (Body.encodeInt_mem r.baselineMs))
      (Body.encodeInt_mem r.distributedMs)
  | errorResponse e =>
    exact Language.append_mem_mul (Body.encodeInt_mem e.code) (Body.encodeText_mem h)

end Message

theorem Kind.number_lt (k : Kind) : k.number < Varint.singleLimit := by
  cases k <;> decide

namespace Message

/-- What is written is one of the forms. -/
theorem toBody_mem_forms {m : Message} (h : m.Writable) : m.toBody ∈ m.forms := by
  have hk : m.kind.number < Word.limit32 := Nat.lt_trans m.kind.number_lt (by decide)
  exact Language.append_mem_mul (Varint.form_encode (w := .word32) hk) (encodeFields_mem h)

theorem decodePrefix_toBody {m : Message} (h : m.Writable) (rest : Bytes) :
    Body.decodePrefix (m.toBody ++ rest) = some (m, rest) :=
  Body.decodePrefix_eq_some_iff.mpr ⟨m.toBody, toBody_mem_forms h, rfl⟩

/-- What is written is read back. -/
theorem ofBody_toBody {m : Message} (h : m.Writable) : ofBody m.toBody = .ok m :=
  ofBody_eq_ok_iff.mpr (toBody_mem_forms h)

/-- A body whose length fits eight bytes has only such lengths in it. -/
theorem writable_of_length {m : Message} (h : m.toBody.length < Word.limit64) : m.Writable := by
  rw [toBody, List.length_append] at h
  cases m with
  | handshake h' =>
    have hl := Body.length_lt_encodeText h'.workerId
    simp only [Body.encodeFields] at h
    simp only [Writable]; omega
  | taskRequest t =>
    have hl := Body.length_lt_encodeInts t.values
    simp only [Body.encodeFields, List.length_append] at h
    simp only [Writable]; omega
  | subtaskRequest s =>
    have hl := Body.length_lt_encodeInts s.values
    simp only [Body.encodeFields, List.length_append] at h
    simp only [Writable]; omega
  | subtaskResult r =>
    have hl := Body.length_lt_encodeText r.workerId
    simp only [Body.encodeFields, List.length_append] at h
    simp only [Writable]; omega
  | clientResponse r => trivial
  | errorResponse e =>
    have hl := Body.length_lt_encodeText e.message
    simp only [Body.encodeFields, List.length_append] at h
    simp only [Writable]; omega

/-! ### Lengths -/

/-- The number of a kind takes one byte. -/
theorem length_toBody (m : Message) : m.toBody.length = 1 + (Body.encodeFields m).length := by
  rw [toBody, List.length_append, Varint.length_encode_eq_one m.kind.number_lt]

theorem length_subtaskRequest_le (s : SubtaskRequest) :
    (subtaskRequest s).toBody.length ≤ 15 + 5 * s.values.length := by
  have hvalues := Body.length_encodeInts_le s.values
  have hdelay := Body.length_encodeInt_le s.delayMs
  rw [length_toBody, Body.encodeFields, List.length_append]
  omega

theorem length_subtaskResult_le (r : SubtaskResult) :
    (subtaskResult r).toBody.length ≤ 15 + (Body.utf8 r.workerId).length := by
  have hsum := Body.length_encodeInt_le r.sum
  have hid := Varint.length_encode_le (Body.utf8 r.workerId).length
  rw [length_toBody, Body.encodeFields, List.length_append, Body.encodeText, List.length_append]
  omega

theorem length_clientResponse_le (r : ClientResponse) :
    (clientResponse r).toBody.length ≤ 16 := by
  have hsum := Body.length_encodeInt_le r.sum
  have hbase := Body.length_encodeInt_le r.baselineMs
  have hdist := Body.length_encodeInt_le r.distributedMs
  rw [length_toBody, Body.encodeFields, List.length_append, List.length_append]
  omega

theorem length_errorResponse_le (e : ErrorResponse) :
    (errorResponse e).toBody.length ≤ 15 + (Body.utf8 e.message).length := by
  have hcode := Body.length_encodeInt_le e.code
  have htext := Varint.length_encode_le (Body.utf8 e.message).length
  rw [length_toBody, Body.encodeFields, List.length_append, Body.encodeText, List.length_append]
  omega

/-- A refusal is longer than its text. -/
theorem le_length_errorResponse (e : ErrorResponse) :
    3 + (Body.utf8 e.message).length ≤ (errorResponse e).toBody.length := by
  have hcode := Body.length_encodeInt_pos e.code
  have htext := Body.length_lt_encodeText e.message
  rw [length_toBody, Body.encodeFields, List.length_append]
  omega

/-! ### Where a body ends -/

theorem ofBody_toBody_append {m : Message} (h : m.Writable) {more : Bytes} (hmore : more ≠ []) :
    ofBody (m.toBody ++ more) = .error (.trailing more.length m.kind) := by
  obtain ⟨b, bs, rfl⟩ := List.exists_cons_of_ne_nil hmore
  rw [ofBody, decodePrefix_toBody h]

theorem ofBody_of_part {m : Message} (h : m.Writable) {part : Bytes} (hpart : part <+: m.toBody)
    (hne : part ≠ m.toBody) : ofBody part = .error (.undecodable part.length) := by
  obtain ⟨more, hmore⟩ := hpart
  cases hread : Body.decodePrefix part with
  | none => rw [ofBody, hread]
  | some r =>
    obtain ⟨m', rest⟩ := r
    -- A message in the part would be the message of the whole body, with something behind it.
    have hwhole := Body.decodePrefix_append hread more
    have hm := decodePrefix_toBody h []
    rw [List.append_nil, ← hmore, hwhole] at hm
    obtain ⟨-, hrest⟩ := Prod.mk.inj (Option.some.inj hm)
    obtain ⟨-, rfl⟩ := List.append_eq_nil_iff.mp hrest
    exact absurd (by rw [← hmore, List.append_nil]) hne

/-- A body is read as the message that it was made of, and that of no other message is the same. It
ends where its message ends: what goes on behind it is refused with the count of what is left, and
what breaks off before is no body. A machine word counts the bytes of a text and the items of a list
in memory, so whatever a machine can hold is writable. -/
theorem toBody_delimits {m : Message} (h : m.Writable) :
    ofBody m.toBody = .ok m ∧
    (∀ m' : Message, m'.Writable → m'.toBody = m.toBody → m' = m) ∧
    (∀ more : Bytes, more ≠ [] → ofBody (m.toBody ++ more) =
      .error (.malformed (natText more.length ++ " trailing bytes after " ++ m.kind.name) [])) ∧
    (∀ part : Bytes, part <+: m.toBody → part ≠ m.toBody → ofBody part =
      .error (.malformed ("undecodable " ++ natText part.length ++ "-byte frame")
        [ProtocolError.unreadableBody])) := by
  refine ⟨ofBody_toBody h, ?_, ?_, ?_⟩
  · intro m' h' heq
    have hread := ofBody_toBody h'
    rw [heq, ofBody_toBody h] at hread
    exact (Except.ok.inj hread).symm
  · intro more hmore
    exact ofBody_toBody_append h hmore
  · intro part hpart hne
    exact ofBody_of_part h hpart hne

/-- The extreme integers, and the first one that does not fit a single byte. -/
def extremes : Message := taskRequest ⟨[-126, 2147483647, -2147483648], 25⟩

theorem toBody_delimits_extremes :
    extremes.Writable ∧ ofBody extremes.toBody = .ok extremes ∧
    ofBody (extremes.toBody ++ [0]) =
      .error (.malformed "1 trailing bytes after TaskRequest" []) ∧
    ofBody (extremes.toBody.take 5) =
      .error (.malformed "undecodable 5-byte frame" [ProtocolError.unreadableBody]) := by
  have h : extremes.Writable := show 3 < Word.limit64 by decide
  have htrailing : natText 1 ++ " trailing bytes after " ++ Kind.taskRequest.name =
      "1 trailing bytes after TaskRequest" := by decide +kernel
  have hpart : "undecodable " ++ natText 5 ++ "-byte frame" = "undecodable 5-byte frame" := by
    decide +kernel
  obtain ⟨hread, -, hmore, hparts⟩ := toBody_delimits h
  refine ⟨h, hread, ?_, ?_⟩
  · rw [← htrailing]
    exact hmore [0] (by decide)
  · rw [← hpart]
    exact hparts (extremes.toBody.take 5) (List.take_prefix ..) (by decide)

end Message

end SumCluster.Wire
