import Mathlib.Computability.Language
import SumCluster.Proofs.Wire.Varint
import SumCluster.Wire.Body

/-!
The forms of a body. A number may come in any width that holds it and that its type allows, so a
value has several forms: a text those of its length with its UTF-8 bytes behind, a list those of its
length with forms of its items behind, a message those of the number of its kind with forms of its
fields behind, in order. The forms of a value are a language, and one stretch behind another is a
product of two. Reading takes exactly these forms off the front of a stream, and so it takes the
same off a stream that goes on.
-/

namespace SumCluster.Wire

/-! ### Forms of values -/

/-- The forms that a number may come in. -/
def Varint.forms (w : Width) (n : Nat) : Language UInt8 := {form | Form w n form}

namespace Body

/-- The forms of an integer: those of the number that it is folded onto. -/
def intForms (v : Int32) : Language UInt8 := Varint.forms .word32 (zigzag v)

/-- The forms of a text: a form of its length, and then its UTF-8 bytes. -/
def textForms (s : String) : Language UInt8 := Varint.forms .word64 (utf8 s).length * {utf8 s}

/-- The forms of some integers, one behind the other. -/
def manyForms (vs : List Int32) : Language UInt8 := (vs.map intForms).prod

/-- The forms of a list: a form of its length, and then forms of its items. -/
def intsForms (vs : List Int32) : Language UInt8 := Varint.forms .word64 vs.length * manyForms vs

/-- The forms of the fields of a message, in order. -/
def fieldForms : Message → Language UInt8
  | .handshake h => textForms h.workerId
  | .taskRequest t => intsForms t.values * intForms t.delayMs
  | .subtaskRequest s => intsForms s.values * intForms s.delayMs
  | .subtaskResult r => intForms r.sum * textForms r.workerId
  | .clientResponse r => intForms r.sum * intForms r.baselineMs * intForms r.distributedMs
  | .errorResponse e => intForms e.code * textForms e.message

end Body

/-- The forms of a message: a form of the number of its kind, and then forms of its fields. -/
def Message.forms (m : Message) : Language UInt8 :=
  Varint.forms .word32 m.kind.number * Body.fieldForms m

/-! ### The front of a stream -/

/-- A stretch in a language stands at the front of a stream, and `rest` is what comes after it. -/
def Leads (L : Language UInt8) (bs rest : Bytes) : Prop := ∃ form ∈ L, form ++ rest = bs

variable {L M : Language UInt8} {bs rest : Bytes}

theorem leads_one : Leads 1 bs rest ↔ rest = bs := by
  constructor
  · rintro ⟨form, hform, rfl⟩
    rw [(Language.mem_one form).mp hform, List.nil_append]
  · rintro rfl
    exact ⟨[], Language.nil_mem_one, rfl⟩

theorem leads_mul : Leads (L * M) bs rest ↔ ∃ mid, Leads L bs mid ∧ Leads M mid rest := by
  constructor
  · rintro ⟨form, hform, rfl⟩
    obtain ⟨a, ha, b, hb, rfl⟩ := Language.mem_mul.mp hform
    exact ⟨b ++ rest, ⟨a, ha, (List.append_assoc ..).symm⟩, b, hb, rfl⟩
  · rintro ⟨mid, ⟨a, ha, rfl⟩, b, hb, rfl⟩
    exact ⟨a ++ b, Language.append_mem_mul ha hb, List.append_assoc ..⟩

theorem leads_nil : Leads L bs [] ↔ bs ∈ L := by
  constructor
  · rintro ⟨form, hform, rfl⟩
    rwa [List.append_nil]
  · intro h
    exact ⟨bs, h, List.append_nil bs⟩

/-- What comes behind a stream does not change what stands at its front. -/
theorem Leads.append (h : Leads L bs rest) (more : Bytes) : Leads L (bs ++ more) (rest ++ more) := by
  obtain ⟨form, hform, rfl⟩ := h
  exact ⟨form, hform, (List.append_assoc ..).symm⟩

/-! ### Reading -/

theorem Varint.decode_eq_some_iff {w : Width} {n : Nat} :
    decode w bs = some (n, rest) ↔ Leads (forms w n) bs rest := by
  constructor
  · exact form_of_decode
  · rintro ⟨form, hform, rfl⟩
    exact decode_form hform rest

theorem zigzag_lt (v : Int32) : zigzag v < Word.limit32 := by
  have h1 := v.toInt_lt
  have h2 := v.le_toInt
  unfold zigzag
  simp only [Word.limit32]
  split_ifs <;> omega

theorem unzigzag_zigzag (v : Int32) : unzigzag (zigzag v) = v := by
  unfold zigzag unzigzag
  by_cases hv : 0 ≤ v.toInt
  · have h : ((2 * v.toInt.natAbs : Nat) : Int) / 2 = v.toInt := by omega
    rw [if_pos hv, if_pos (by omega), h, Int32.ofInt_toInt]
  · have h : -(((2 * v.toInt.natAbs - 1 : Nat) : Int) / 2) - 1 = v.toInt := by omega
    rw [if_neg hv, if_neg (by omega), h, Int32.ofInt_toInt]

theorem zigzag_unzigzag {n : Nat} (h : n < Word.limit32) : zigzag (unzigzag n) = n := by
  simp only [Word.limit32] at h
  unfold zigzag unzigzag
  rcases Nat.mod_two_eq_zero_or_one n with he | ho
  · have hv : (Int32.ofInt ((n : Int) / 2)).toInt = (n : Int) / 2 :=
      Int32.toInt_ofInt_of_le (by omega) (by omega)
    rw [if_pos he, hv, if_pos (by omega)]
    omega
  · have hv : (Int32.ofInt (-((n : Int) / 2) - 1)).toInt = -((n : Int) / 2) - 1 :=
      Int32.toInt_ofInt_of_le (by omega) (by omega)
    rw [if_neg (show ¬n % 2 = 0 by omega), hv, if_neg (by omega)]
    omega

namespace Body

theorem decodeInt_eq_some_iff {v : Int32} :
    decodeInt bs = some (v, rest) ↔ Leads (intForms v) bs rest := by
  rw [intForms, ← Varint.decode_eq_some_iff, decodeInt, Option.map_eq_some_iff]
  constructor
  · rintro ⟨⟨n, rest'⟩, hread, heq⟩
    obtain ⟨rfl, rfl⟩ := Prod.mk.inj heq
    obtain ⟨form, hform, -⟩ := Varint.form_of_decode hread
    rwa [zigzag_unzigzag hform.lt_bound]
  · intro hread
    exact ⟨_, hread, by simp only [unzigzag_zigzag]⟩

theorem ofUtf8?_eq_some_iff {s : String} : ofUtf8? bs = some s ↔ bs = utf8 s := by
  constructor
  · intro h
    rw [ofUtf8?, String.fromUTF8?] at h
    split_ifs at h with hvalid
    rw [← Option.some.inj h]
    rfl
  · rintro rfl
    have h : (⟨(utf8 s).toArray⟩ : ByteArray) = s.toByteArray := rfl
    rw [ofUtf8?, h, String.fromUTF8?, dif_pos s.isValidUTF8]
    rfl

theorem decodeText_eq_some_iff {s : String} :
    decodeText bs = some (s, rest) ↔ Leads (textForms s) bs rest := by
  rw [textForms, leads_mul]
  simp only [← Varint.decode_eq_some_iff]
  constructor
  · intro h
    obtain ⟨⟨n, mid⟩, hread, h⟩ := Option.bind_eq_some_iff.mp h
    simp only [Option.ite_none_right_eq_some] at h
    obtain ⟨hle, h⟩ := h
    obtain ⟨s', htext, heq⟩ := Option.bind_eq_some_iff.mp h
    obtain ⟨rfl, rfl⟩ := Prod.mk.inj (Option.some.inj heq)
    have htake : mid.take n = utf8 s' := ofUtf8?_eq_some_iff.mp htext
    have hn : (utf8 s').length = n := by rw [← htake, List.length_take_of_le hle]
    exact ⟨mid, by rw [hn]; exact hread, utf8 s', rfl, by rw [← htake, List.take_append_drop]⟩
  · rintro ⟨mid, hread, form, rfl, rfl⟩
    simp only [decodeText, hread, Option.bind_eq_bind, Option.bind_some]
    rw [if_pos (by simp), List.take_left, ofUtf8?_eq_some_iff.mpr rfl, Option.bind_some,
      List.drop_left]

theorem decodeMany_eq_some_iff {n : Nat} {vs : List Int32} :
    decodeMany n bs = some (vs, rest) ↔ vs.length = n ∧ Leads (manyForms vs) bs rest := by
  induction n generalizing bs vs with
  | zero =>
    constructor
    · intro h
      obtain ⟨rfl, rfl⟩ := Prod.mk.inj (Option.some.inj h)
      exact ⟨rfl, leads_one.mpr rfl⟩
    · rintro ⟨hlen, hlead⟩
      obtain rfl := List.length_eq_zero_iff.mp hlen
      rw [leads_one.mp hlead, decodeMany]
  | succ n ih =>
    constructor
    · intro h
      obtain ⟨⟨v, mid⟩, hfirst, h⟩ := Option.bind_eq_some_iff.mp h
      obtain ⟨⟨vs', rest'⟩, hmany, h⟩ := Option.bind_eq_some_iff.mp h
      obtain ⟨rfl, rfl⟩ := Prod.mk.inj (Option.some.inj h)
      obtain ⟨rfl, hlead⟩ := ih.mp hmany
      exact ⟨rfl, leads_mul.mpr ⟨mid, decodeInt_eq_some_iff.mp hfirst, hlead⟩⟩
    · rintro ⟨hlen, hlead⟩
      obtain ⟨v, vs', rfl⟩ := List.exists_cons_of_length_eq_add_one hlen
      obtain ⟨mid, hfirst, hmany⟩ := leads_mul.mp hlead
      rw [decodeMany, decodeInt_eq_some_iff.mpr hfirst]
      simp only [Option.bind_eq_bind, Option.bind_some,
        ih.mpr ⟨Nat.succ.inj hlen, hmany⟩]

theorem decodeInts_eq_some_iff {vs : List Int32} :
    decodeInts bs = some (vs, rest) ↔ Leads (intsForms vs) bs rest := by
  rw [intsForms, leads_mul]
  simp only [← Varint.decode_eq_some_iff]
  constructor
  · intro h
    obtain ⟨⟨n, mid⟩, hcount, hmany⟩ := Option.bind_eq_some_iff.mp h
    obtain ⟨rfl, hlead⟩ := decodeMany_eq_some_iff.mp hmany
    exact ⟨mid, hcount, hlead⟩
  · rintro ⟨mid, hcount, hlead⟩
    rw [decodeInts, hcount]
    exact decodeMany_eq_some_iff.mpr ⟨rfl, hlead⟩

theorem leads_of_decodeFields {kind : Kind} {m : Message}
    (h : decodeFields bs kind = some (m, rest)) : m.kind = kind ∧ Leads (fieldForms m) bs rest := by
  cases kind with
  | handshake =>
    obtain ⟨⟨workerId, _⟩, hid, h⟩ := Option.bind_eq_some_iff.mp h
    obtain ⟨rfl, rfl⟩ := Prod.mk.inj (Option.some.inj h)
    exact ⟨rfl, decodeText_eq_some_iff.mp hid⟩
  | taskRequest =>
    obtain ⟨⟨values, mid⟩, hvalues, h⟩ := Option.bind_eq_some_iff.mp h
    obtain ⟨⟨delayMs, _⟩, hdelay, h⟩ := Option.bind_eq_some_iff.mp h
    obtain ⟨rfl, rfl⟩ := Prod.mk.inj (Option.some.inj h)
    exact ⟨rfl, leads_mul.mpr ⟨mid, decodeInts_eq_some_iff.mp hvalues,
      decodeInt_eq_some_iff.mp hdelay⟩⟩
  | subtaskRequest =>
    obtain ⟨⟨values, mid⟩, hvalues, h⟩ := Option.bind_eq_some_iff.mp h
    obtain ⟨⟨delayMs, _⟩, hdelay, h⟩ := Option.bind_eq_some_iff.mp h
    obtain ⟨rfl, rfl⟩ := Prod.mk.inj (Option.some.inj h)
    exact ⟨rfl, leads_mul.mpr ⟨mid, decodeInts_eq_some_iff.mp hvalues,
      decodeInt_eq_some_iff.mp hdelay⟩⟩
  | subtaskResult =>
    obtain ⟨⟨sum, mid⟩, hsum, h⟩ := Option.bind_eq_some_iff.mp h
    obtain ⟨⟨workerId, _⟩, hid, h⟩ := Option.bind_eq_some_iff.mp h
    obtain ⟨rfl, rfl⟩ := Prod.mk.inj (Option.some.inj h)
    exact ⟨rfl, leads_mul.mpr ⟨mid, decodeInt_eq_some_iff.mp hsum, decodeText_eq_some_iff.mp hid⟩⟩
  | clientResponse =>
    obtain ⟨⟨sum, mid⟩, hsum, h⟩ := Option.bind_eq_some_iff.mp h
    obtain ⟨⟨baselineMs, mid'⟩, hbase, h⟩ := Option.bind_eq_some_iff.mp h
    obtain ⟨⟨distributedMs, _⟩, hdist, h⟩ := Option.bind_eq_some_iff.mp h
    obtain ⟨rfl, rfl⟩ := Prod.mk.inj (Option.some.inj h)
    have hfirst := leads_mul.mpr ⟨mid, decodeInt_eq_some_iff.mp hsum, decodeInt_eq_some_iff.mp hbase⟩
    exact ⟨rfl, leads_mul.mpr ⟨mid', hfirst, decodeInt_eq_some_iff.mp hdist⟩⟩
  | errorResponse =>
    obtain ⟨⟨code, mid⟩, hcode, h⟩ := Option.bind_eq_some_iff.mp h
    obtain ⟨⟨message, _⟩, hmessage, h⟩ := Option.bind_eq_some_iff.mp h
    obtain ⟨rfl, rfl⟩ := Prod.mk.inj (Option.some.inj h)
    exact ⟨rfl, leads_mul.mpr ⟨mid, decodeInt_eq_some_iff.mp hcode,
      decodeText_eq_some_iff.mp hmessage⟩⟩

theorem decodeFields_of_leads {m : Message} (h : Leads (fieldForms m) bs rest) :
    decodeFields bs m.kind = some (m, rest) := by
  cases m with
  | handshake h' =>
    simp only [Message.kind, decodeFields, decodeText_eq_some_iff.mpr h, Option.bind_eq_bind,
      Option.bind_some]
  | taskRequest t =>
    obtain ⟨mid, hvalues, hdelay⟩ := leads_mul.mp h
    simp only [Message.kind, decodeFields, decodeInts_eq_some_iff.mpr hvalues,
      decodeInt_eq_some_iff.mpr hdelay, Option.bind_eq_bind, Option.bind_some]
  | subtaskRequest s =>
    obtain ⟨mid, hvalues, hdelay⟩ := leads_mul.mp h
    simp only [Message.kind, decodeFields, decodeInts_eq_some_iff.mpr hvalues,
      decodeInt_eq_some_iff.mpr hdelay, Option.bind_eq_bind, Option.bind_some]
  | subtaskResult r =>
    obtain ⟨mid, hsum, hid⟩ := leads_mul.mp h
    simp only [Message.kind, decodeFields, decodeInt_eq_some_iff.mpr hsum,
      decodeText_eq_some_iff.mpr hid, Option.bind_eq_bind, Option.bind_some]
  | clientResponse r =>
    obtain ⟨mid', hfirst, hdist⟩ := leads_mul.mp h
    obtain ⟨mid, hsum, hbase⟩ := leads_mul.mp hfirst
    simp only [Message.kind, decodeFields, decodeInt_eq_some_iff.mpr hsum,
      decodeInt_eq_some_iff.mpr hbase, decodeInt_eq_some_iff.mpr hdist, Option.bind_eq_bind,
      Option.bind_some]
  | errorResponse e =>
    obtain ⟨mid, hcode, hmessage⟩ := leads_mul.mp h
    simp only [Message.kind, decodeFields, decodeInt_eq_some_iff.mpr hcode,
      decodeText_eq_some_iff.mpr hmessage, Option.bind_eq_bind, Option.bind_some]

end Body

theorem Kind.ofNumber?_eq_some_iff {n : Nat} {k : Kind} :
    Kind.ofNumber? n = some k ↔ k.number = n := by
  constructor
  · intro h
    -- There are six numbers; behind them the list of kinds has ended.
    rcases n with _ | _ | _ | _ | _ | _ | n <;> cases h <;> rfl
  · rintro rfl
    cases k <;> rfl

theorem Body.decodePrefix_eq_some_iff {m : Message} :
    decodePrefix bs = some (m, rest) ↔ Leads m.forms bs rest := by
  rw [Message.forms, leads_mul]
  simp only [← Varint.decode_eq_some_iff]
  constructor
  · intro h
    obtain ⟨⟨n, mid⟩, hnumber, h⟩ := Option.bind_eq_some_iff.mp h
    obtain ⟨kind, hkind, hfields⟩ := Option.bind_eq_some_iff.mp h
    obtain ⟨rfl, hlead⟩ := leads_of_decodeFields hfields
    exact ⟨mid, by rw [Kind.ofNumber?_eq_some_iff.mp hkind]; exact hnumber, hlead⟩
  · rintro ⟨mid, hnumber, hlead⟩
    simp only [decodePrefix, hnumber, Option.bind_eq_bind, Option.bind_some,
      Kind.ofNumber?_eq_some_iff.mpr rfl, decodeFields_of_leads hlead]

/-- What is read off the front of a stream is read off a stream that goes on. -/
theorem Body.decodePrefix_append {m : Message} (h : decodePrefix bs = some (m, rest))
    (more : Bytes) : decodePrefix (bs ++ more) = some (m, rest ++ more) :=
  decodePrefix_eq_some_iff.mpr ((decodePrefix_eq_some_iff.mp h).append more)

/-- A body is read as a message if it is one of its forms. -/
theorem Message.ofBody_eq_ok_iff {body : Bytes} {m : Message} :
    ofBody body = .ok m ↔ body ∈ m.forms := by
  rw [← leads_nil, ← Body.decodePrefix_eq_some_iff]
  constructor
  · intro h
    unfold ofBody at h
    split at h
    · cases h
    · rename_i hread
      rw [← Except.ok.inj h]
      exact hread
    · cases h
  · intro h
    rw [ofBody, h]

end SumCluster.Wire
