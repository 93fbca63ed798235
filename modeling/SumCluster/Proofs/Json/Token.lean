import SumCluster.Json.Parser
import SumCluster.Json.Printer
import SumCluster.Proofs.Text.Integer

/-!
String literals and numbers, written and read back. A literal ends at its closing quote, so anything
may follow it; a number is read back if what follows cannot be taken for a part of it.
-/

namespace SumCluster.Json

open Text (digits isDigit hexChar hexValue? decimal_digits digits_eq_cons digits_ne_nil)

variable {c : Char} {cs ds rest : List Char} {ps : List Piece} {n : Nat}

/-! ### Characters -/

theorem hexValue?_hexChar : ∀ d < 16, hexValue? (hexChar d) = some d := by decide

/-- A control is named by its code in four digits. -/
theorem hex4?_hexChar (h : n < 32) : hex4? '0' '0' (hexChar (n / 16)) (hexChar (n % 16)) = some n := by
  have hhigh := hexValue?_hexChar (n / 16) (by omega)
  have hlow := hexValue?_hexChar (n % 16) (by omega)
  have hzero : hexValue? '0' = some 0 := rfl
  simp only [hex4?, hhigh, hlow, hzero, bind, Option.bind, pure]
  congr 1
  omega

theorem Piece.ofCode_toNat (h : c.toNat < 32) : Piece.ofCode c.toNat = .char c := by
  have hhigh : isHigh c.toNat = false := by simp [isHigh]; omega
  have hlow : isLow c.toNat = false := by simp [isLow]; omega
  simp [Piece.ofCode, hhigh, hlow]

theorem pieces_code {a b d : Char} (h : hex4? a b c d = some n) (hcs : pieces cs = some (ps, rest)) :
    pieces ('\\' :: 'u' :: a :: b :: c :: d :: cs) = some (.ofCode n :: ps, rest) := by
  rw [pieces, h, hcs]
  rfl

theorem pieces_letter {l : Char} (hl : l ≠ 'u') (h : escaped? l = some c)
    (hcs : pieces cs = some (ps, rest)) :
    pieces ('\\' :: l :: cs) = some (.char c :: ps, rest) := by
  rw [pieces]
  · rw [h, hcs]
    rfl
  · rintro a b c d rest' rfl
    exact fun _ => hl rfl

theorem pieces_plain (hquote : c ≠ '"') (hslash : c ≠ '\\') (hc : ¬c.toNat < 32)
    (hcs : pieces cs = some (ps, rest)) : pieces (c :: cs) = some (.char c :: ps, rest) := by
  rw [pieces.eq_def]
  split <;> simp_all

/-- A character is read back from the way it stands in a literal. -/
theorem pieces_escapeChar (c : Char) (hcs : pieces cs = some (ps, rest)) :
    pieces (escapeChar c ++ cs) = some (.char c :: ps, rest) := by
  unfold escapeChar
  split_ifs with hquote hslash hback hfeed hline hreturn htab hcontrol
  · exact pieces_letter (by decide) (by rw [hquote]; rfl) hcs
  · exact pieces_letter (by decide) (by rw [hslash]; rfl) hcs
  · have h : c = Char.ofNat 8 := by rw [← Char.ofNat_toNat c, hback]
    exact pieces_letter (by decide) (by rw [h]; rfl) hcs
  · have h : c = Char.ofNat 12 := by rw [← Char.ofNat_toNat c, hfeed]
    exact pieces_letter (by decide) (by rw [h]; rfl) hcs
  · exact pieces_letter (by decide) (by rw [hline]; rfl) hcs
  · exact pieces_letter (by decide) (by rw [hreturn]; rfl) hcs
  · exact pieces_letter (by decide) (by rw [htab]; rfl) hcs
  · rw [← Piece.ofCode_toNat hcontrol]
    exact pieces_code (hex4?_hexChar hcontrol) hcs
  · exact pieces_plain hquote hslash hcontrol hcs

/-! ### Literals -/

theorem pieces_flatMap_escapeChar (cs rest : List Char) :
    pieces (cs.flatMap escapeChar ++ '"' :: rest) = some (cs.map .char, rest) := by
  induction cs with
  | nil => rfl
  | cons c cs ih =>
    rw [List.flatMap_cons, List.append_assoc]
    exact pieces_escapeChar c ih

@[simp]
theorem joinPieces_map_char (cs : List Char) : joinPieces (cs.map .char) = some cs := by
  induction cs with
  | nil => rfl
  | cons c cs ih => simp [joinPieces, ih]

/-- A literal is its opening quote and a body that is read back, whatever follows. -/
theorem printLiteral_append (s : Literal) (rest : List Char) :
    ∃ body, printLiteral s ++ rest = '"' :: body ∧ stringBody body = some (s, rest) := by
  cases s with
  | none => exact ⟨_, rfl, rfl⟩
  | some cs =>
    refine ⟨cs.flatMap escapeChar ++ '"' :: rest, by simp [printLiteral], ?_⟩
    simp [stringBody, pieces_flatMap_escapeChar]

/-! ### Digits -/

/-- A character that no number goes on with. -/
def endsNumber (c : Char) : Bool := !isDigit c && c ≠ '.' && c ≠ 'e' && c ≠ 'E'

/-- What may follow a number: nothing, or a text that does not begin with more of it. -/
def EndsNumber (cs : List Char) : Prop := ∀ c ∈ cs.head?, endsNumber c = true

/-- What may follow a row of digits: anything but one more of them. -/
def EndsDigits (cs : List Char) : Prop := ∀ c ∈ cs.head?, isDigit c = false

theorem endsNumber_iff :
    endsNumber c = true ↔ isDigit c = false ∧ c ≠ '.' ∧ c ≠ 'e' ∧ c ≠ 'E' := by
  simp [endsNumber, and_assoc]

theorem EndsNumber.endsDigits (h : EndsNumber rest) : EndsDigits rest :=
  fun c hc => (endsNumber_iff.mp (h c hc)).1

@[simp]
theorem endsDigits_cons : EndsDigits (c :: cs) ↔ isDigit c = false := by
  simp [EndsDigits]

@[simp]
theorem endsNumber_cons : EndsNumber (c :: cs) ↔ endsNumber c = true := by
  simp [EndsNumber]

/-- A row of digits is taken up to its end. -/
theorem someDigits_append (hne : ds ≠ []) (hds : ∀ c ∈ ds, isDigit c = true)
    (hrest : EndsDigits rest) : someDigits (ds ++ rest) = some (ds, rest) := by
  obtain ⟨htake, hdrop⟩ : rest.takeWhile isDigit = [] ∧ rest.dropWhile isDigit = rest := by
    cases rest with
    | nil => exact ⟨rfl, rfl⟩
    | cons c cs => simp [endsDigits_cons.mp hrest]
  rw [someDigits, List.takeWhile_append_of_pos hds, List.dropWhile_append_of_pos hds, htake, hdrop,
    List.append_nil, if_neg hne]

/-- A number does not begin with anything else, least of all with a sign. -/
theorem digits_append_ne (n : Nat) (hc : isDigit c = false) : digits n ++ rest ≠ c :: cs := by
  obtain ⟨d, ds, hrow, hd, -⟩ := digits_eq_cons n
  rw [hrow, List.cons_append]
  intro h
  cases h
  simp [hd] at hc

theorem someDigits_digits (n : Nat) (hrest : EndsDigits rest) :
    someDigits (digits n ++ rest) = some (digits n, rest) :=
  someDigits_append (digits_ne_nil n) (decimal_digits n).isDigit hrest

/-- A number has no needless zero, so all of its digits are the whole part. -/
theorem wholePart_digits (n : Nat) (hrest : EndsDigits rest) :
    wholePart (digits n ++ rest) = some (digits n, rest) := by
  unfold wholePart
  rw [someDigits_digits n hrest]
  split
  · -- A zero in front makes the number zero, which has no second digit.
    rename_i heq
    obtain ⟨hrow, -⟩ := Prod.mk.inj (Option.some.inj heq)
    obtain ⟨d, ds, hcons, -, hzero⟩ := digits_eq_cons n
    rw [hcons] at hrow
    cases hrow
    cases hzero rfl
    rw [digits] at hcons
    cases hcons
  · rfl

/-! ### Numbers -/

theorem fraction_none (h : EndsNumber rest) : fraction rest = some (none, rest) := by
  unfold fraction
  split
  · simp [endsNumber_iff] at h
  · rfl

theorem power_none (h : EndsNumber rest) : power rest = some (none, rest) := by
  unfold power
  split
  · simp [endsNumber_iff] at h
  · simp [endsNumber_iff] at h
  · rfl

theorem signedDigits_printSign (e : Int) (h : EndsDigits rest) :
    signedDigits (printSign (e < 0) ++ (digits e.natAbs ++ rest)) = some (e, rest) := by
  by_cases he : e < 0
  · have habs : -(e.natAbs : Int) = e := by omega
    simp only [printSign, he, decide_true, if_true, List.cons_append, List.nil_append, signedDigits,
      someDigits_digits _ h, Option.map_some, Text.ofDigits_digits, habs]
  · have habs : (e.natAbs : Int) = e := by omega
    simp only [printSign, he, decide_false, Bool.false_eq_true, if_false, List.nil_append]
    unfold signedDigits
    split
    · exact absurd ‹_› (digits_append_ne _ rfl)
    · exact absurd ‹_› (digits_append_ne _ rfl)
    · simp [someDigits_digits _ h, habs]

theorem unsignedNumber_int (negative : Bool) (n : Nat) (h : EndsNumber rest) :
    unsignedNumber negative (digits n ++ rest) = some (.int negative n, rest) := by
  simp [unsignedNumber, wholePart_digits n h.endsDigits, fraction_none h, power_none h]

theorem unsignedNumber_scaled (negative : Bool) (n : Nat) (e : Int) (h : EndsNumber rest) :
    unsignedNumber negative
      (digits n ++ 'e' :: (printSign (e < 0) ++ (digits e.natAbs ++ rest))) =
      some (.scaled negative n e, rest) := by
  have hend : EndsDigits ('e' :: (printSign (e < 0) ++ (digits e.natAbs ++ rest))) :=
    endsDigits_cons.mpr rfl
  simp [unsignedNumber, wholePart_digits n hend, fraction, power,
    signedDigits_printSign e h.endsDigits]

theorem number_printSign (negative : Bool) (n : Nat) :
    number (printSign negative ++ (digits n ++ rest)) =
      unsignedNumber negative (digits n ++ rest) := by
  cases negative with
  | true => rfl
  | false =>
    simp only [printSign, Bool.false_eq_true, if_false, List.nil_append]
    unfold number
    split
    · exact absurd ‹_› (digits_append_ne n rfl)
    · rfl

/-- A number is read back in the form it has. -/
theorem number_printNumber (x : Number) (h : EndsNumber rest) :
    number (printNumber x ++ rest) = some (x, rest) := by
  cases x with
  | int negative n =>
    rw [printNumber, List.append_assoc, number_printSign, unsignedNumber_int negative n h]
  | scaled negative n e =>
    rw [printNumber, List.append_assoc, List.append_assoc, number_printSign, List.cons_append,
      List.append_assoc, unsignedNumber_scaled negative n e h]

end SumCluster.Json
