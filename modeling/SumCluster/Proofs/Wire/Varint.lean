import Mathlib.Algebra.Group.Nat.Defs
import Mathlib.Tactic.SplitIfs
import SumCluster.Wire.Varint

/-!
Numbers on the wire. A number may come in several forms, and what is read off the front is one of
the forms of the number that is read. Writing takes one of them, so a number is read back whatever
follows it, and all others are longer: that one has one to nine bytes, and at most five for a number
of four bytes.
-/

namespace SumCluster.Wire

/-! ### Bytes in order -/

@[simp] theorem length_littleEndian : ∀ k n : Nat, (littleEndian k n).length = k
  | 0, _ => rfl
  | k + 1, n => by rw [littleEndian, List.length_cons, length_littleEndian k]

@[simp] theorem length_bigEndian (k n : Nat) : (bigEndian k n).length = k := by
  rw [bigEndian, List.length_reverse, length_littleEndian]

theorem toNat_ofNat_mod (n : Nat) : (UInt8.ofNat (n % 256)).toNat = n % 256 := by
  simp

/-- What is read off the front is the number in so many bytes. -/
theorem littleEndian_of_read {k n : Nat} {bs rest : Bytes}
    (h : readLittleEndian k bs = some (n, rest)) : littleEndian k n ++ rest = bs ∧ n < 256 ^ k := by
  induction k generalizing n bs with
  | zero =>
    obtain ⟨rfl, rfl⟩ := Prod.mk.inj (Option.some.inj h)
    exact ⟨rfl, by simp⟩
  | succ k ih =>
    cases bs with
    | nil => cases h
    | cons b bs =>
      obtain ⟨⟨m, rest'⟩, hread, heq⟩ := Option.map_eq_some_iff.mp h
      obtain ⟨rfl, rfl⟩ := Prod.mk.inj heq
      obtain ⟨rfl, hm⟩ := ih hread
      have hb : b.toNat < 256 := b.toNat_lt
      refine ⟨?_, by rw [Nat.pow_succ]; omega⟩
      have hlow : (b.toNat + 256 * m) % 256 = b.toNat := by omega
      have hhigh : (b.toNat + 256 * m) / 256 = m := by omega
      rw [littleEndian, hlow, hhigh, UInt8.ofNat_toNat, List.cons_append]

theorem readLittleEndian_littleEndian (rest : Bytes) {k n : Nat} (h : n < 256 ^ k) :
    readLittleEndian k (littleEndian k n ++ rest) = some (n, rest) := by
  induction k generalizing n with
  | zero =>
    have hn : n = 0 := by simpa using h
    rw [hn]; rfl
  | succ k ih =>
    have hk : n / 256 < 256 ^ k := by
      rw [Nat.div_lt_iff_lt_mul (by decide)]; rwa [Nat.pow_succ] at h
    simp only [littleEndian, List.cons_append, readLittleEndian, ih hk, Option.map_some,
      toNat_ofNat_mod]
    rw [Nat.mod_add_div]

/-- The number that some bytes make up when the least significant comes first. -/
theorem foldr_littleEndian {k n : Nat} (h : n < 256 ^ k) :
    (littleEndian k n).foldr (fun b n => 256 * n + b.toNat) 0 = n := by
  induction k generalizing n with
  | zero =>
    have hn : n = 0 := by simpa using h
    rw [hn]; rfl
  | succ k ih =>
    have hk : n / 256 < 256 ^ k := by
      rw [Nat.div_lt_iff_lt_mul (by decide)]; rwa [Nat.pow_succ] at h
    rw [littleEndian, List.foldr_cons, ih hk, toNat_ofNat_mod, Nat.div_add_mod]

theorem ofBigEndian_bigEndian {k n : Nat} (h : n < 256 ^ k) : ofBigEndian (bigEndian k n) = n := by
  rw [ofBigEndian, bigEndian, List.foldl_reverse]
  exact foldr_littleEndian h

theorem littleEndian_foldr (bs : Bytes) :
    littleEndian bs.length (bs.foldr (fun b n => 256 * n + b.toNat) 0) = bs := by
  induction bs with
  | nil => rfl
  | cons b bs ih =>
    have hb : b.toNat < 256 := b.toNat_lt
    rw [List.length_cons, List.foldr_cons, littleEndian, Nat.mul_add_mod, Nat.mod_eq_of_lt hb,
      UInt8.ofNat_toNat, Nat.mul_add_div (by decide), Nat.div_eq_of_lt hb, Nat.add_zero, ih]

/-- Four bytes are the form of the number that they make up, and so for any other count. -/
theorem bigEndian_ofBigEndian (bs : Bytes) : bigEndian bs.length (ofBigEndian bs) = bs := by
  have h := littleEndian_foldr bs.reverse
  rw [List.length_reverse, List.foldr_reverse] at h
  rw [bigEndian, ofBigEndian, h, List.reverse_reverse]

/-! ### Forms -/

namespace Width

/-- The first number that a type is too narrow for. -/
def bound : Width → Nat
  | word32 => Word.limit32
  | word64 => Word.limit64

end Width

namespace Varint

/-- The forms that a number may come in: itself as a single byte, or a marker and then the number in
a width that holds it and that is not wider than the type. -/
inductive Form : Width → Nat → Bytes → Prop where
  | single {w : Width} {n : Nat} (h : n < singleLimit) : Form w n [UInt8.ofNat n]
  | two {w : Width} {n : Nat} (h : n < Word.limit16) : Form w n (marker16 :: littleEndian 2 n)
  | four {w : Width} {n : Nat} (h : n < Word.limit32) : Form w n (marker32 :: littleEndian 4 n)
  | eight {n : Nat} (h : n < Word.limit64) : Form .word64 n (marker64 :: littleEndian 8 n)

variable {w : Width} {n : Nat} {form : Bytes}

theorem toNat_ofNat_single (h : n < singleLimit) : (UInt8.ofNat n).toNat = n := by
  simp only [singleLimit] at h
  simp; omega

theorem decode_form (h : Form w n form) (rest : Bytes) :
    decode w (form ++ rest) = some (n, rest) := by
  cases h with
  | single h => rw [List.singleton_append, decode, toNat_ofNat_single h, if_pos h]
  | two h => exact readLittleEndian_littleEndian rest h
  | four h => exact readLittleEndian_littleEndian rest h
  | eight h => exact readLittleEndian_littleEndian rest h

theorem form_of_decode {bs rest : Bytes} (h : decode w bs = some (n, rest)) :
    ∃ form, Form w n form ∧ form ++ rest = bs := by
  cases bs with
  | nil => cases h
  | cons b bs =>
    rw [decode] at h
    split_ifs at h with h1 h2 h3 h4
    · obtain ⟨rfl, rfl⟩ := Prod.mk.inj (Option.some.inj h)
      exact ⟨_, .single h1, by rw [UInt8.ofNat_toNat, List.singleton_append]⟩
    · obtain ⟨rfl, hn⟩ := littleEndian_of_read h
      exact ⟨_, .two hn, by rw [h2, List.cons_append]⟩
    · obtain ⟨rfl, hn⟩ := littleEndian_of_read h
      exact ⟨_, .four hn, by rw [h3, List.cons_append]⟩
    · obtain ⟨rfl, hn⟩ := littleEndian_of_read h
      obtain ⟨rfl, rfl⟩ := h4
      exact ⟨_, .eight hn, by rw [List.cons_append]⟩

theorem Form.lt_bound (h : Form w n form) : n < w.bound := by
  have h32 : Word.limit32 ≤ w.bound := by cases w <;> decide
  cases h with
  | single h => exact Nat.lt_of_lt_of_le (Nat.lt_trans h (by decide)) h32
  | two h => exact Nat.lt_of_lt_of_le (Nat.lt_trans h (by decide)) h32
  | four h => exact Nat.lt_of_lt_of_le h h32
  | eight h => exact h

/-! ### The shortest form -/

theorem form_encode (h : n < w.bound) : Form w n (encode n) := by
  unfold encode
  split_ifs with h1 h2 h3
  · exact .single h1
  · exact .two h2
  · exact .four h3
  · cases w with
    | word32 => exact absurd h h3
    | word64 => exact .eight h

theorem length_encode_pos (n : Nat) : 0 < (encode n).length := by
  unfold encode; split_ifs <;> simp

theorem length_encode_le (n : Nat) : (encode n).length ≤ 9 := by
  unfold encode; split_ifs <;> simp

theorem length_encode_le_five {n : Nat} (h : n < Word.limit32) : (encode n).length ≤ 5 := by
  unfold encode; rw [if_pos h]; split_ifs <;> simp

theorem length_encode_eq_one {n : Nat} (h : n < singleLimit) : (encode n).length = 1 := by
  unfold encode; rw [if_pos h]; rfl

end Varint

end SumCluster.Wire
