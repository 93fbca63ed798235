import SumCluster.Proofs.TaskInput

/-!
What a client may type for a delay: one value, the way it could stand alone in a list of values, if it
is not negative. So the delay and the values are read by the same rules, although the delay is never
looked through for commas.
-/

namespace SumCluster.TaskInput

open Text

variable {text : List Char} {d d' : Int32}

/-- A list of one value is the text of that value. -/
theorem lists_singleton_iff : Lists text [d] ↔ Holds text d := by
  constructor
  · rintro ⟨-, pieces, rfl, hpieces⟩
    obtain ⟨piece, _, hpiece, hnone, rfl⟩ := List.forall₂_cons_right_iff.mp hpieces
    obtain rfl := List.forall₂_nil_right_iff.mp hnone
    simpa using hpiece
  · intro h
    exact ⟨List.cons_ne_nil _ _, [text], by simp, .cons h .nil⟩

theorem Holds.unique (h : Holds text d) (h' : Holds text d') : d = d' :=
  Option.some.inj ((holds_iff.mp h).symm.trans (holds_iff.mp h'))

/-- Of a text that stands for a value only the sign is asked. -/
theorem parseDelay_of_holds (h : Holds text d) :
    parseDelay text = if d < 0 then .error .negativeDelay else .ok d := by
  rw [parseDelay, holds_iff.mp h]

theorem parseDelay_of_not_holds (h : ∀ d, ¬Holds text d) :
    parseDelay text = .error (.badDelay (trim text)) := by
  have hnone : readInt32? (trim text) = none :=
    Option.eq_none_iff_forall_ne_some.mpr fun d hd => h d (holds_iff.mpr hd)
  rw [parseDelay, hnone]

theorem holds_or_not (text : List Char) : (∃ d, Holds text d) ∨ ∀ d, ¬Holds text d := by
  by_cases h : ∃ d, Holds text d
  · exact .inl h
  · exact .inr (not_exists.mp h)

theorem parseDelay_eq_ok_iff : parseDelay text = .ok d ↔ Holds text d ∧ 0 ≤ d := by
  rcases holds_or_not text with ⟨v, hv⟩ | hnone
  · rw [parseDelay_of_holds hv]
    constructor
    · intro h
      split_ifs at h with hneg
      obtain rfl := Except.ok.inj h
      exact ⟨hv, Int32.not_lt.mp hneg⟩
    · rintro ⟨hd, hpos⟩
      obtain rfl := hv.unique hd
      exact if_neg (Int32.not_lt.mpr hpos)
  · rw [parseDelay_of_not_holds hnone]
    exact ⟨nofun, fun h => absurd h.1 (hnone d)⟩

theorem parseDelay_eq_negativeDelay_iff :
    parseDelay text = .error .negativeDelay ↔ ∃ d < 0, Holds text d := by
  rcases holds_or_not text with ⟨v, hv⟩ | hnone
  · rw [parseDelay_of_holds hv]
    constructor
    · intro h
      split_ifs at h with hneg
      exact ⟨v, hneg, hv⟩
    · rintro ⟨d, hneg, hd⟩
      obtain rfl := hv.unique hd
      exact if_pos hneg
  · rw [parseDelay_of_not_holds hnone]
    exact ⟨nofun, fun ⟨d, _, hd⟩ => absurd hd (hnone d)⟩

theorem parseDelay_eq_badDelay_iff {shown : List Char} :
    parseDelay text = .error (.badDelay shown) ↔ (∀ d, ¬Holds text d) ∧ shown = trim text := by
  rcases holds_or_not text with ⟨v, hv⟩ | hnone
  · rw [parseDelay_of_holds hv]
    constructor
    · intro h
      split_ifs at h
      cases h
    · rintro ⟨hno, -⟩
      exact absurd hv (hno v)
  · rw [parseDelay_of_not_holds hnone]
    constructor
    · rintro ⟨⟩
      exact ⟨hnone, rfl⟩
    · rintro ⟨-, rfl⟩
      rfl

/-- Only a negative delay is called negative: what else is wrong is said in other words. -/
theorem eq_negativeDelay_of_detail {e : InputError} (h : e.detail = "delay cannot be negative") :
    e = .negativeDelay := by
  cases e with
  | negativeDelay => rfl
  | emptyList => exact absurd h (by decide)
  | notIntegers piece =>
    change "expected comma-separated integers, found " ++ String.ofList (quote piece) = _ at h
    rw [← String.toList_inj, String.toList_append] at h
    simp at h
  | badDelay piece =>
    change "invalid delay " ++ String.ofList (quote piece) = _ at h
    rw [← String.toList_inj, String.toList_append] at h
    simp at h

theorem eq_negativeDelay_of_toError {e : InputError}
    (h : e.toError = .invalidInput "delay cannot be negative") : e = .negativeDelay := by
  rw [InputError.toError] at h
  exact eq_negativeDelay_of_detail (ClusterError.invalidInput.inj h)

/-- A text is read as a delay exactly if it is read as a list of that one value and the value is not
negative. It is called negative exactly if it is read as a list of one negative value. In every other
case, several values included, it is refused as it stands, without the white space around it. -/
theorem parseDelay_agrees (text : List Char) :
    (∀ d, parseDelay text = .ok d ↔ parseValues text = .ok [d] ∧ 0 ≤ d) ∧
    ((∃ e, parseDelay text = .error e ∧ e.toError = .invalidInput "delay cannot be negative") ↔
      ∃ d < 0, parseValues text = .ok [d]) ∧
    ∀ shown, parseDelay text = .error (.badDelay shown) ↔
      (∀ d, parseValues text ≠ .ok [d]) ∧ shown = trim text := by
  simp only [ne_eq, parseValues_eq_ok_iff, lists_singleton_iff]
  refine ⟨fun d => parseDelay_eq_ok_iff, ?_, fun shown => parseDelay_eq_badDelay_iff⟩
  rw [← parseDelay_eq_negativeDelay_iff]
  constructor
  · rintro ⟨e, hparse, he⟩
    rwa [eq_negativeDelay_of_toError he] at hparse
  · exact fun hparse => ⟨_, hparse, rfl⟩

end SumCluster.TaskInput
