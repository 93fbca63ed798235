import Mathlib.Data.List.DropRight
import SumCluster.Text.Blank
import SumCluster.Text.Split

/-!
Texts taken apart. A text falls into the pieces between the occurrences of a character in one way
only, and a piece loses the white space around it in one way only.
-/

namespace SumCluster.Text

variable {sep : Char} {cs front back inner : List Char} {pieces : List (List Char)}

/-! ### Pieces -/

theorem splitOn_ne_nil (sep : Char) (cs : List Char) : splitOn sep cs ≠ [] := by
  cases cs with
  | nil => exact List.cons_ne_nil _ _
  | cons c cs =>
    rw [splitOn]
    cases splitOn sep cs with
    | nil => exact List.cons_ne_nil _ _
    | cons p ps => dsimp only; split_ifs <;> exact List.cons_ne_nil _ _

/-- One more character in front. -/
theorem splitOn_cons {p : List Char} {ps : List (List Char)} (h : splitOn sep cs = p :: ps)
    (c : Char) :
    splitOn sep (c :: cs) = if c = sep then [] :: p :: ps else (c :: p) :: ps := by
  rw [splitOn, h]

theorem splitOn_eq (sep : Char) (cs : List Char) : splitOn sep cs = cs.splitOn sep := by
  induction cs with
  | nil => rfl
  | cons c cs ih =>
    obtain ⟨p, ps, hps⟩ := List.exists_cons_of_ne_nil (splitOn_ne_nil sep cs)
    rw [splitOn_cons hps, List.splitOn_cons_eq_if_modifyHead, ← ih, hps]
    simp only [beq_iff_eq, List.modifyHead_cons]

theorem not_mem_of_mem_splitOn : ∀ p ∈ splitOn sep cs, sep ∉ p := by
  induction cs with
  | nil => simp [splitOn]
  | cons c cs ih =>
    obtain ⟨p, ps, hps⟩ := List.exists_cons_of_ne_nil (splitOn_ne_nil sep cs)
    obtain ⟨hp, hrest⟩ := List.forall_mem_cons.mp (hps ▸ ih)
    rw [splitOn_cons hps]
    split_ifs with hc
    · simpa using ⟨hp, hrest⟩
    · simpa [Ne.symm hc] using ⟨hp, hrest⟩

/-- The one way to write a text as pieces with `sep` between them and in none of them. -/
theorem splitOn_eq_iff :
    splitOn sep cs = pieces ↔
      pieces ≠ [] ∧ (∀ p ∈ pieces, sep ∉ p) ∧ cs = [sep].intercalate pieces := by
  constructor
  · rintro rfl
    refine ⟨?_, not_mem_of_mem_splitOn, ?_⟩ <;> rw [splitOn_eq]
    · exact List.splitOn_ne_nil sep cs
    · exact (List.intercalate_splitOn sep).symm
  · rintro ⟨hne, hpure, rfl⟩
    rw [splitOn_eq, List.splitOn_intercalate sep hpure hne]

/-- A piece is part of the text. -/
theorem mem_intercalate {p : List Char} {c : Char} (hp : p ∈ pieces) (hc : c ∈ p) :
    c ∈ [sep].intercalate pieces := by
  induction pieces with
  | nil => cases hp
  | cons q qs ih =>
    cases qs with
    | nil =>
      obtain rfl := List.mem_singleton.mp hp
      simpa using hc
    | cons r rs =>
      rw [List.intercalate_cons_cons]
      rcases List.mem_cons.mp hp with rfl | hp
      · simp [hc]
      · exact List.mem_append_right _ (ih hp)

/-! ### White space -/

/-- `cs` is `inner` with white space before and after it, any amount of either. -/
def Padded (inner cs : List Char) : Prop :=
  ∃ front back, cs = front ++ inner ++ back ∧
    (∀ c ∈ front, isBlank c = true) ∧ ∀ c ∈ back, isBlank c = true

/-- A text that neither begins nor ends with white space. -/
def Tight (cs : List Char) : Prop :=
  ∀ h : cs ≠ [], isBlank (cs.head h) = false ∧ isBlank (cs.getLast h) = false

theorem tight_of_forall (h : ∀ c ∈ cs, isBlank c = false) : Tight cs :=
  fun hne => ⟨h _ (List.head_mem hne), h _ (List.getLast_mem hne)⟩

theorem trimStart_append (h : ∀ c ∈ front, isBlank c = true) (cs : List Char) :
    trimStart (front ++ cs) = trimStart cs :=
  List.dropWhile_append_of_pos h

theorem trimEnd_append (h : ∀ c ∈ back, isBlank c = true) (cs : List Char) :
    trimEnd (cs ++ back) = trimEnd cs := by
  rw [trimEnd, List.reverse_append, List.dropWhile_append_of_pos (by simpa using h)]
  rfl

theorem trim_of_padded (h : Padded inner cs) (tight : Tight inner) : trim cs = inner := by
  obtain ⟨front, back, rfl, hfront, hback⟩ := h
  rw [trim, List.append_assoc, trimStart_append hfront]
  cases inner with
  | nil =>
    have hgone : trimStart back = [] := by
      rw [← List.append_nil back, trimStart_append hback]
      rfl
    rw [List.nil_append, hgone]
    rfl
  | cons c inner =>
    have hkept : trimStart (c :: inner ++ back) = c :: inner ++ back :=
      List.dropWhile_cons_of_neg (by simpa using (tight (List.cons_ne_nil c inner)).1)
    rw [hkept, trimEnd_append hback]
    exact List.rdropWhile_eq_self_iff.mpr fun hne => by simp [(tight hne).2]

theorem padded_trim (cs : List Char) : Padded (trim cs) cs := by
  refine ⟨cs.takeWhile isBlank, (trimStart cs).rtakeWhile isBlank, ?_, ?_, ?_⟩
  · rw [List.append_assoc]
    have hback : trim cs ++ (trimStart cs).rtakeWhile isBlank = trimStart cs :=
      List.rdropWhile_append_rtakeWhile
    rw [hback]
    exact List.takeWhile_append_dropWhile.symm
  · exact fun c hc => List.mem_takeWhile_imp hc
  · exact fun c hc => List.mem_rtakeWhile_imp hc

theorem tight_trim (cs : List Char) : Tight (trim cs) := by
  intro hne
  -- What is taken off the back leaves the head where it is.
  have hkept : trim cs <+: trimStart cs := List.rdropWhile_prefix isBlank (trimStart cs)
  constructor
  · rw [hkept.head hne]
    exact List.head_dropWhile_not isBlank _
  · exact eq_false_of_ne_true (List.rdropWhile_last_not isBlank (trimStart cs) hne)

/-- The one way to take white space off until none is left at either end. -/
theorem trim_eq_iff : trim cs = inner ↔ Padded inner cs ∧ Tight inner := by
  constructor
  · rintro rfl
    exact ⟨padded_trim cs, tight_trim cs⟩
  · rintro ⟨hpadded, htight⟩
    exact trim_of_padded hpadded htight

end SumCluster.Text
