import SumCluster.Proofs.Wire.Body

/-!
Of all the forms of a message the one that is written is the shortest. A number in a width that is
wider than needed takes more bytes, and what is put together from shortest stretches is shortest.
Main statement: a body is read as a message exactly if it is one of its forms, and then it is no
shorter than the body that is written, and no other form is as short.
-/

namespace SumCluster.Wire

/-- All stretches in a language are longer than this one, itself apart. -/
def Shortest (short : Bytes) (L : Language UInt8) : Prop :=
  ∀ form ∈ L, short.length ≤ form.length ∧ (form.length = short.length → form = short)

theorem shortest_singleton (bs : Bytes) : Shortest bs {bs} := by
  rintro form rfl
  exact ⟨Nat.le_refl _, fun _ => rfl⟩

theorem shortest_one : Shortest [] 1 := by
  intro form hform
  rw [(Language.mem_one form).mp hform]
  exact ⟨Nat.le_refl _, fun _ => rfl⟩

theorem Shortest.mul {a b : Bytes} {L M : Language UInt8} (ha : Shortest a L)
    (hb : Shortest b M) : Shortest (a ++ b) (L * M) := by
  intro form hform
  obtain ⟨x, hx, y, hy, rfl⟩ := Language.mem_mul.mp hform
  obtain ⟨hxle, hxeq⟩ := ha x hx
  obtain ⟨hyle, hyeq⟩ := hb y hy
  simp only [List.length_append]
  refine ⟨by omega, ?_⟩
  intro hlength
  -- Neither part is below its own bound, so both lie on it.
  rw [hxeq (by omega), hyeq (by omega)]

theorem Varint.shortest_encode (w : Width) (n : Nat) : Shortest (encode n) (forms w n) := by
  intro form hform
  cases hform with
  | single h =>
    rw [encode, if_pos h]
    exact ⟨Nat.le_refl _, fun _ => rfl⟩
  | two h =>
    unfold encode
    split_ifs <;> simp
  | four h =>
    unfold encode
    split_ifs <;> simp
  | eight h =>
    unfold encode
    split_ifs <;> simp

namespace Body

theorem shortest_encodeInt (v : Int32) : Shortest (encodeInt v) (intForms v) :=
  Varint.shortest_encode .word32 (zigzag v)

theorem shortest_flatMap (vs : List Int32) : Shortest (vs.flatMap encodeInt) (manyForms vs) := by
  induction vs with
  | nil => exact shortest_one
  | cons v vs ih => exact (shortest_encodeInt v).mul ih

theorem shortest_encodeInts (vs : List Int32) : Shortest (encodeInts vs) (intsForms vs) :=
  (Varint.shortest_encode .word64 vs.length).mul (shortest_flatMap vs)

theorem shortest_encodeText (s : String) : Shortest (encodeText s) (textForms s) :=
  (Varint.shortest_encode .word64 (utf8 s).length).mul (shortest_singleton (utf8 s))

theorem shortest_encodeFields (m : Message) : Shortest (encodeFields m) (fieldForms m) := by
  cases m with
  | handshake h => exact shortest_encodeText h.workerId
  | taskRequest t => exact (shortest_encodeInts t.values).mul (shortest_encodeInt t.delayMs)
  | subtaskRequest s => exact (shortest_encodeInts s.values).mul (shortest_encodeInt s.delayMs)
  | subtaskResult r => exact (shortest_encodeInt r.sum).mul (shortest_encodeText r.workerId)
  | clientResponse r =>
    exact ((shortest_encodeInt r.sum).mul (shortest_encodeInt r.baselineMs)).mul
      (shortest_encodeInt r.distributedMs)
  | errorResponse e => exact (shortest_encodeInt e.code).mul (shortest_encodeText e.message)

end Body

namespace Message

theorem shortest_toBody (m : Message) : Shortest m.toBody m.forms :=
  (Varint.shortest_encode .word32 m.kind.number).mul (Body.shortest_encodeFields m)

/-- A body has more bytes than the task in it has values. -/
theorem length_values_lt {body : Bytes} {t : TaskRequest}
    (h : ofBody body = .ok (.taskRequest t)) : t.values.length < body.length := by
  have hshort := (shortest_toBody _ body (ofBody_eq_ok_iff.mp h)).1
  have hvalues := Body.length_lt_encodeInts t.values
  rw [length_toBody, Body.encodeFields, List.length_append] at hshort
  omega

/-- A body is read as a message exactly if it is the number of the message's kind and then its fields
in order, with each number in any width that holds it and that its type allows, and each text in its
UTF-8 bytes behind their count. Writing takes the shortest of these forms, and no other is as
short. -/
theorem ofBody_takes_forms (body : Bytes) (m : Message) :
    (ofBody body = .ok m ↔ body ∈ m.forms) ∧
    (ofBody body = .ok m →
      m.toBody.length ≤ body.length ∧ (m.toBody.length = body.length → body = m.toBody)) := by
  refine ⟨ofBody_eq_ok_iff, ?_⟩
  intro h
  obtain ⟨hle, heq⟩ := shortest_toBody m body (ofBody_eq_ok_iff.mp h)
  exact ⟨hle, fun hlength => heq hlength.symm⟩

/-- A kind in four bytes and a length in eight. -/
def wide : Bytes := [0xfc, 0, 0, 0, 0, 0xfd, 1, 0, 0, 0, 0, 0, 0, 0, 119]

theorem ofBody_takes_forms_wide :
    ofBody wide = .ok (.handshake ⟨"w"⟩) ∧ wide ∈ (handshake ⟨"w"⟩).forms ∧
    (handshake ⟨"w"⟩).toBody.length ≤ wide.length ∧ wide ≠ (handshake ⟨"w"⟩).toBody := by
  have hread : ofBody wide = .ok (.handshake ⟨"w"⟩) := by decide
  obtain ⟨htakes, hshort⟩ := ofBody_takes_forms wide (.handshake ⟨"w"⟩)
  exact ⟨hread, htakes.mp hread, (hshort hread).1, by decide⟩

end Message

end SumCluster.Wire
