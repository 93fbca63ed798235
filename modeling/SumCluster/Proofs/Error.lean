import SumCluster.Error
import SumCluster.Proofs.Wire.Body

/-!
How long the refusals are that clients get. The numbers in them are machine words, so every refusal
fits a frame of 128 bytes; and the text around them alone takes more than many a task does.
-/

namespace SumCluster

open Text (digitChar digits natText)
open Wire (Message)

/-! ### Texts -/

namespace Text

theorem utf8Size_digitChar : ∀ d < 10, (digitChar d).utf8Size = 1 := by decide

theorem length_utf8Encode_digits (n : Nat) :
    (digits n).utf8Encode.size = (digits n).length := by
  induction n using digits.induct with
  | case1 n h =>
    rw [digits, if_pos h]
    simp [List.utf8Encode, utf8Size_digitChar n h]
  | case2 n h ih =>
    rw [digits, if_neg h, List.utf8Encode_append, ByteArray.size_append, List.length_append, ih]
    simp [List.utf8Encode, utf8Size_digitChar (n % 10) (Nat.mod_lt n (by decide))]

theorem length_digits_le {k n : Nat} (h : n < 10 ^ (k + 1)) : (digits n).length ≤ k + 1 := by
  induction k generalizing n with
  | zero =>
    have hdigit : n < 10 := by simpa using h
    rw [digits, if_pos hdigit]
    simp
  | succ k ih =>
    rw [digits]
    split
    · simp
    · have hquotient : n / 10 < 10 ^ (k + 1) := by
        rw [Nat.pow_succ] at h
        omega
      have hrest := ih hquotient
      simp
      omega

theorem length_digits_pos (n : Nat) : 0 < (digits n).length := by
  rw [digits]
  split <;> simp

theorem utf8ByteSize_natText (n : Nat) : (natText n).utf8ByteSize = (digits n).length := by
  rw [natText, ← String.size_toByteArray, String.toByteArray_ofList, length_utf8Encode_digits]

/-- A machine word has at most twenty digits. -/
theorem utf8ByteSize_natText_le {n : Nat} (h : n < Word.limit64) :
    (natText n).utf8ByteSize ≤ 20 := by
  rw [utf8ByteSize_natText]
  exact length_digits_le (Nat.lt_trans h (by decide))

end Text

/-! ### Refusals -/

namespace ClusterError

theorem message_insufficientWorkers (available required : Nat) :
    (insufficientWorkers available required).message = "Not enough nodes: " ++ natText available ++
      " registered, at least " ++ natText required ++ " required" := rfl

theorem message_consensusFailed (distinct total : Nat) :
    (consensusFailed distinct total).message = "Consensus check failed: " ++ natText distinct ++
      " distinct values among " ++ natText total ++ " partial results" := rfl

/-- A text with two machine words in it. -/
theorem utf8ByteSize_words_le {n m : Nat} (hn : n < Word.limit64) (hm : m < Word.limit64)
    (first second third : String) :
    (first ++ natText n ++ second ++ natText m ++ third).utf8ByteSize ≤
      first.utf8ByteSize + second.utf8ByteSize + third.utf8ByteSize + 40 := by
  have hn' := Text.utf8ByteSize_natText_le hn
  have hm' := Text.utf8ByteSize_natText_le hm
  simp only [String.utf8ByteSize_append]
  omega

/-- A refusal whose text is not too long. -/
theorem length_response_le {text : String} {n : Nat} (h : text.utf8ByteSize ≤ n) (code : Int32) :
    (Message.errorResponse ⟨code, text⟩).toBody.length ≤ 15 + n :=
  Nat.le_trans (Message.length_errorResponse_le ⟨code, text⟩) (Nat.add_le_add_left h 15)

theorem length_response_insufficientWorkers {available required : Nat}
    (ha : available < Word.limit64) (hr : required < Word.limit64) (code : Int32) :
    (Message.errorResponse ⟨code, (insufficientWorkers available required).message⟩).toBody.length
      ≤ 128 := by
  have htext := utf8ByteSize_words_le ha hr "Not enough nodes: " " registered, at least "
    " required"
  have hwords : "Not enough nodes: ".utf8ByteSize + " registered, at least ".utf8ByteSize +
      " required".utf8ByteSize = 49 := by decide
  rw [hwords, ← message_insufficientWorkers] at htext
  exact Nat.le_trans (length_response_le htext code) (by decide)

/-- However small its numbers are, a refusal for want of workers takes 54 bytes. -/
theorem le_length_response_insufficientWorkers (available required : Nat) (code : Int32) : 54 ≤
    (Message.errorResponse ⟨code, (insufficientWorkers available required).message⟩).toBody.length
    := by
  have hbody := Message.le_length_errorResponse
    ⟨code, (insufficientWorkers available required).message⟩
  have htext : 51 ≤ (insufficientWorkers available required).message.utf8ByteSize := by
    have havailable := Text.length_digits_pos available
    have hrequired := Text.length_digits_pos required
    have hwords : "Not enough nodes: ".utf8ByteSize + " registered, at least ".utf8ByteSize +
        " required".utf8ByteSize = 49 := by decide
    rw [message_insufficientWorkers]
    simp only [String.utf8ByteSize_append, Text.utf8ByteSize_natText]
    omega
  exact Nat.le_trans (Nat.add_le_add_left htext 3) hbody

theorem length_response_consensusFailed {distinct total : Nat} (hd : distinct < Word.limit64)
    (ht : total < Word.limit64) (code : Int32) :
    (Message.errorResponse ⟨code, (consensusFailed distinct total).message⟩).toBody.length
      ≤ 128 := by
  have htext := utf8ByteSize_words_le hd ht "Consensus check failed: " " distinct values among "
    " partial results"
  have hwords : "Consensus check failed: ".utf8ByteSize + " distinct values among ".utf8ByteSize +
      " partial results".utf8ByteSize = 63 := by decide
  rw [hwords, ← message_consensusFailed] at htext
  exact Nat.le_trans (length_response_le htext code) (by decide)

end ClusterError

end SumCluster
