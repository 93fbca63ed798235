import Mathlib.Data.List.Induction
import Mathlib.Data.Nat.Digits.Defs
import SumCluster.Text.Integer

/-!
Which texts are integers. The reader takes every row of digits after at most one sign, with as many
zeros in front as somebody cares to write, and gives the number in base ten; it takes nothing else.
What the writer writes is one of the texts the reader takes for that number.
-/

namespace SumCluster.Text

variable {c : Char} {cs : List Char} {d n : Nat} {i : Int}

/-- A row of decimal digits, the most significant first, and the number it stands for. -/
def Decimal (cs : List Char) (n : Nat) : Prop :=
  ∃ ds : List Nat, ds ≠ [] ∧ (∀ d ∈ ds, d < 10) ∧ cs = ds.map Nat.digitChar ∧
    n = Nat.ofDigits 10 ds.reverse

/-- An integer the way somebody may write it, digits after at most one sign. -/
inductive Numeral : List Char → Int → Prop
  | plain {cs : List Char} {n : Nat} (h : Decimal cs n) : Numeral cs n
  | plus {cs : List Char} {n : Nat} (h : Decimal cs n) : Numeral ('+' :: cs) n
  | minus {cs : List Char} {n : Nat} (h : Decimal cs n) : Numeral ('-' :: cs) (-n)

/-! ### Digits -/

theorem isDigit_iff : isDigit c = true ↔ ∃ d < 10, c = Nat.digitChar d := by
  constructor
  · intro h
    obtain ⟨hlo, hhi⟩ : 48 ≤ c.toNat ∧ c.toNat ≤ 57 := by simpa [isDigit] using h
    refine ⟨c.toNat - 48, by omega, Char.toNat_inj.mp ?_⟩
    rw [Nat.toNat_digitChar_of_lt_ten (by omega)]
    omega
  · rintro ⟨d, hd, rfl⟩
    simp only [isDigit, Nat.toNat_digitChar_of_lt_ten hd, Bool.and_eq_true, decide_eq_true_eq]
    omega

theorem digitValue_digitChar (hd : d < 10) : digitValue (Nat.digitChar d) = d :=
  Nat.toNat_digitChar_sub_48_of_lt_ten hd

theorem digitChar_eq : ∀ d < 10, digitChar d = Nat.digitChar d := by decide

/-- The digits of a row, read off one by one. -/
theorem map_digitValue (h : ∀ c ∈ cs, isDigit c = true) :
    (∀ d ∈ cs.map digitValue, d < 10) ∧ cs = (cs.map digitValue).map Nat.digitChar := by
  induction cs with
  | nil => simp
  | cons c cs ih =>
    obtain ⟨hhead, htail⟩ := List.forall_mem_cons.mp h
    obtain ⟨d, hd, rfl⟩ := isDigit_iff.mp hhead
    obtain ⟨hsmall, hrow⟩ := ih htail
    simp only [List.map_cons, digitValue_digitChar hd]
    exact ⟨List.forall_mem_cons.mpr ⟨hd, hsmall⟩, congrArg _ hrow⟩

/-! ### Rows of digits -/

theorem ofDigits_concat (cs : List Char) (c : Char) :
    ofDigits (cs ++ [c]) = 10 * ofDigits cs + digitValue c := by
  simp [ofDigits, List.foldl_append]

/-- Taking the digits in one by one gives the number that they are in base ten. -/
theorem ofDigits_map {ds : List Nat} (small : ∀ d ∈ ds, d < 10) :
    ofDigits (ds.map Nat.digitChar) = Nat.ofDigits 10 ds.reverse := by
  induction ds using List.reverseRecOn with
  | nil => rfl
  | append_singleton ds d ih =>
    obtain ⟨hds, hd⟩ := List.forall_mem_append.mp small
    rw [List.map_append, List.map_singleton, ofDigits_concat, ih hds,
      digitValue_digitChar (hd d (List.mem_singleton_self d)), List.reverse_append,
      List.reverse_singleton, List.singleton_append, Nat.ofDigits_cons, Nat.add_comm]

theorem Decimal.isDigit (h : Decimal cs n) : ∀ c ∈ cs, isDigit c = true := by
  obtain ⟨ds, -, hsmall, rfl, -⟩ := h
  intro c hc
  obtain ⟨d, hd, rfl⟩ := List.mem_map.mp hc
  exact isDigit_iff.mpr ⟨d, hsmall d hd, rfl⟩

theorem readNat?_eq_some_iff : readNat? cs = some n ↔ Decimal cs n := by
  unfold readNat?
  rw [Option.ite_none_right_eq_some, List.all_eq_true]
  constructor
  · rintro ⟨⟨hne, hdigits⟩, hn⟩
    obtain ⟨hsmall, hrow⟩ := map_digitValue hdigits
    refine ⟨cs.map digitValue, by simpa using hne, hsmall, hrow, ?_⟩
    rw [← ofDigits_map hsmall, ← hrow]
    exact (Option.some.inj hn).symm
  · intro h
    have hdigits := h.isDigit
    obtain ⟨ds, hne, hsmall, rfl, rfl⟩ := h
    exact ⟨⟨by simpa using hne, hdigits⟩, congrArg some (ofDigits_map hsmall)⟩

/-- One more digit at the end. -/
theorem Decimal.concat (h : Decimal cs n) (hd : d < 10) :
    Decimal (cs ++ [digitChar d]) (10 * n + d) := by
  obtain ⟨ds, -, hsmall, rfl, rfl⟩ := h
  refine ⟨ds ++ [d], by simp, ?_, by simp [digitChar_eq d hd], ?_⟩
  · exact List.forall_mem_append.mpr ⟨hsmall, by simpa using hd⟩
  · rw [List.reverse_append, List.reverse_singleton, List.singleton_append, Nat.ofDigits_cons,
      Nat.add_comm]

theorem decimal_digits (n : Nat) : Decimal (digits n) n := by
  induction n using digits.induct with
  | case1 n hn =>
    rw [digits, if_pos hn, digitChar_eq n hn]
    exact ⟨[n], List.cons_ne_nil _ _, by simpa using hn, rfl, by simp⟩
  | case2 n hn ih =>
    rw [digits, if_neg hn]
    have h := ih.concat (Nat.mod_lt n (by decide : 10 > 0))
    rwa [Nat.div_add_mod] at h

@[simp]
theorem ofDigits_digits (n : Nat) : ofDigits (digits n) = n := by
  obtain ⟨ds, -, hsmall, hrow, hn⟩ := decimal_digits n
  rw [hrow, ofDigits_map hsmall, ← hn]

/-- A number begins with a digit, and no number but zero with a zero. -/
theorem digits_eq_cons (n : Nat) :
    ∃ d ds, digits n = d :: ds ∧ isDigit d = true ∧ (d = '0' → n = 0) := by
  induction n using digits.induct with
  | case1 n hlt =>
    have hdigit : ∀ n < 10, isDigit (digitChar n) = true ∧ (digitChar n = '0' → n = 0) := by decide
    exact ⟨digitChar n, [], by rw [digits, if_pos hlt], hdigit n hlt⟩
  | case2 n hge ih =>
    obtain ⟨d, ds, hrow, hd, hzero⟩ := ih
    refine ⟨d, ds ++ [digitChar (n % 10)], by rw [digits, if_neg hge, hrow]; rfl, hd, fun h => ?_⟩
    have := hzero h
    omega

theorem digits_ne_nil (n : Nat) : digits n ≠ [] := by
  obtain ⟨d, ds, hrow, -⟩ := digits_eq_cons n
  exact hrow ▸ List.cons_ne_nil d ds

/-! ### Signs -/

/-- What follows a sign is a row of digits, and the sign acts on its number. -/
theorem map_readNat?_eq_some_iff {f : Int → Int} :
    ((readNat? cs).bind fun n => some (n : Int)).map f = some i ↔ ∃ n, Decimal cs n ∧ f n = i := by
  simp [Option.bind_eq_some_iff, readNat?_eq_some_iff]

theorem readInt?_eq_some_iff : readInt? cs = some i ↔ Numeral cs i := by
  constructor
  · intro h
    unfold readInt? at h
    split at h <;> obtain ⟨n, hn, rfl⟩ := map_readNat?_eq_some_iff.mp h
    · exact .minus hn
    · exact .plus hn
    · exact .plain hn
  · intro h
    cases h with
    | plain h =>
      -- A row of digits begins with neither sign, so the last branch is the one taken.
      unfold readInt?
      split
      · cases (h.isDigit '-' List.mem_cons_self : false = true)
      · cases (h.isDigit '+' List.mem_cons_self : false = true)
      · exact map_readNat?_eq_some_iff.mpr ⟨_, h, rfl⟩
    | plus h => exact map_readNat?_eq_some_iff.mpr ⟨_, h, rfl⟩
    | minus h => exact map_readNat?_eq_some_iff.mpr ⟨_, h, rfl⟩

theorem readInt32?_eq_some_iff {v : Int32} : readInt32? cs = some v ↔ Numeral cs v.toInt := by
  constructor
  · intro h
    obtain ⟨i, hi, rfl⟩ := Option.map_eq_some_iff.mp h
    obtain ⟨hread, hfits⟩ := Option.filter_eq_some_iff.mp hi
    obtain ⟨hlo, hhi⟩ := of_decide_eq_true hfits
    rw [Int32.toInt_ofInt_of_le (by omega) (by omega)]
    exact readInt?_eq_some_iff.mp hread
  · intro h
    have hlo := v.le_toInt
    have hhi := v.toInt_lt
    have hfits : -2147483648 ≤ v.toInt ∧ v.toInt ≤ 2147483647 := by omega
    simp [readInt32?, readIntIn?, readInt?_eq_some_iff.mpr h, Option.filter, hfits]

theorem numeral_writeInt (i : Int) : Numeral (writeInt i) i := by
  unfold writeInt
  split
  · have h := Numeral.minus (decimal_digits i.natAbs)
    rwa [show -(i.natAbs : Int) = i by omega] at h
  · have h := Numeral.plain (decimal_digits i.natAbs)
    rwa [show (i.natAbs : Int) = i by omega] at h

/-- Whatever 32-bit integer is written is read back. -/
@[simp]
theorem readInt32?_writeInt32 (v : Int32) : readInt32? (writeInt32 v) = some v :=
  readInt32?_eq_some_iff.mpr (numeral_writeInt v.toInt)

/-! ### Characters -/

theorem Numeral.ne_nil (h : Numeral cs i) : cs ≠ [] := by
  cases h with
  | plain h =>
    obtain ⟨ds, hne, -, rfl, -⟩ := h
    simpa using hne
  | plus h => exact List.cons_ne_nil _ _
  | minus h => exact List.cons_ne_nil _ _

theorem Numeral.mem (h : Numeral cs i) (hc : c ∈ cs) : c = '+' ∨ c = '-' ∨ isDigit c = true := by
  cases h with
  | plain h => exact .inr (.inr (h.isDigit c hc))
  | plus h => exact (List.mem_cons.mp hc).imp id fun hc => .inr (h.isDigit c hc)
  | minus h => exact .inr ((List.mem_cons.mp hc).imp id (h.isDigit c))

end SumCluster.Text
