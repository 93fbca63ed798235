import Mathlib.Data.List.Forall2
import SumCluster.Proofs.Text.Integer
import SumCluster.Proofs.Text.Pieces
import SumCluster.TaskInput

/-!
What a client may type for a list of values: between the commas, numerals with white space around
them. Every such text is read as the values that its numerals stand for, and every other text is
refused, a blank one for listing nothing and the rest for the leftmost piece that is no numeral or
one whose value 32 bits cannot hold.
-/

namespace SumCluster.TaskInput

open Text

variable {piece text : List Char} {v : Int32} {vs : List Int32}

/-- A piece between commas that stands for `v`: a numeral for it, with any white space around. -/
def Holds (piece : List Char) (v : Int32) : Prop :=
  ∃ numeral, Padded numeral piece ∧ Numeral numeral v.toInt

/-- `text` lists the values, at least one, in pieces with commas between them. -/
def Lists (text : List Char) (vs : List Int32) : Prop :=
  vs ≠ [] ∧ ∃ pieces, text = [','].intercalate pieces ∧ List.Forall₂ Holds pieces vs

/-- `piece` is the leftmost piece between the commas of `text` that stands for no value. -/
def FirstBad (text piece : List Char) : Prop :=
  ∃ before after, text = [','].intercalate (before ++ piece :: after) ∧
    (∀ p ∈ before ++ piece :: after, ',' ∉ p) ∧ (∀ p ∈ before, ∃ v, Holds p v) ∧
    ∀ v, ¬Holds piece v

/-- A value between white space, ready to be typed. -/
structure Entry where
  front : List Char
  value : Int32
  back : List Char
  blank_front : ∀ c ∈ front, isBlank c = true
  blank_back : ∀ c ∈ back, isBlank c = true

/-- The entry as it is typed. -/
def Entry.written (e : Entry) : List Char := e.front ++ writeInt32 e.value ++ e.back

/-! ### One piece -/

/-- Neither white space nor a comma occurs in a numeral. -/
theorem plain_of_numeral {cs : List Char} {i : Int} (h : Numeral cs i) :
    (∀ c ∈ cs, isBlank c = false) ∧ ',' ∉ cs := by
  have hchars : ∀ c ∈ cs, isBlank c = false ∧ c ≠ ',' := by
    intro c hc
    rcases h.mem hc with rfl | rfl | hdigit
    · decide
    · decide
    · obtain ⟨d, hd, rfl⟩ := isDigit_iff.mp hdigit
      exact (by decide : ∀ d < 10, isBlank (Nat.digitChar d) = false ∧ Nat.digitChar d ≠ ',') d hd
  exact ⟨fun c hc => (hchars c hc).1, fun hc => (hchars ',' hc).2 rfl⟩

/-- A piece stands for what is read off it once it is trimmed. -/
theorem holds_iff : Holds piece v ↔ readInt32? (trim piece) = some v := by
  rw [readInt32?_eq_some_iff]
  constructor
  · rintro ⟨numeral, hpadded, hnumeral⟩
    rwa [trim_of_padded hpadded (tight_of_forall (plain_of_numeral hnumeral).1)]
  · exact fun h => ⟨trim piece, padded_trim piece, h⟩

theorem parseValue_eq_ok_iff : parseValue piece = .ok v ↔ Holds piece v := by
  rw [holds_iff, parseValue]
  cases readInt32? (trim piece) <;> simp

theorem parseValue_eq_error_iff {e : InputError} :
    parseValue piece = .error e ↔ (∀ v, ¬Holds piece v) ∧ e = .notIntegers (trim piece) := by
  simp only [holds_iff, parseValue]
  cases readInt32? (trim piece) <;> simp [eq_comm]

theorem Holds.not_mem_comma (h : Holds piece v) : ',' ∉ piece := by
  obtain ⟨numeral, ⟨front, back, rfl, hfront, hback⟩, hnumeral⟩ := h
  have hblank : isBlank ',' = false := by decide
  simp only [List.mem_append, not_or]
  exact ⟨⟨fun hc => by simp [hfront _ hc] at hblank, (plain_of_numeral hnumeral).2⟩,
    fun hc => by simp [hback _ hc] at hblank⟩

theorem Holds.exists_not_blank (h : Holds piece v) : ∃ c ∈ piece, isBlank c = false := by
  obtain ⟨numeral, ⟨front, back, rfl, -, -⟩, hnumeral⟩ := h
  obtain ⟨c, hc⟩ := List.exists_mem_of_ne_nil numeral hnumeral.ne_nil
  exact ⟨c, by simp [hc], (plain_of_numeral hnumeral).1 c hc⟩

theorem Entry.holds (e : Entry) : Holds e.written e.value :=
  ⟨writeInt32 e.value, ⟨e.front, e.back, rfl, e.blank_front, e.blank_back⟩,
    numeral_writeInt e.value.toInt⟩

/-! ### All pieces -/

section Traversal

variable {α β ε : Type} {f : α → Except ε β}

theorem mapM_eq_ok_iff {xs : List α} {ys : List β} :
    xs.mapM f = .ok ys ↔ List.Forall₂ (fun x y => f x = .ok y) xs ys := by
  induction xs generalizing ys with
  | nil => cases ys <;> simp [pure, Except.pure]
  | cons x xs ih =>
    rw [List.mapM_cons, List.forall₂_cons_left_iff]
    cases hx : f x with
    | error e => simp [bind, Except.bind]
    | ok y =>
      cases hxs : xs.mapM f with
      | error e => simp [bind, Except.bind, ← ih, hxs]
      | ok ys' => simp [bind, Except.bind, pure, Except.pure, ← ih, hxs, eq_comm]

/-- A traversal fails the way its first failing element does. -/
theorem mapM_eq_error_iff {xs : List α} {e : ε} :
    xs.mapM f = .error e ↔
      ∃ before x after, xs = before ++ x :: after ∧ (∀ b ∈ before, ∃ y, f b = .ok y) ∧
        f x = .error e := by
  constructor
  · intro h
    induction xs with
    | nil => cases h
    | cons x xs ih =>
      cases hx : f x with
      | error e' =>
        have he : e' = e := by simpa [List.mapM_cons, hx, bind, Except.bind] using h
        exact ⟨[], x, xs, rfl, by simp, he ▸ hx⟩
      | ok y =>
        have hxs : xs.mapM f = .error e := by
          rw [List.mapM_cons, hx] at h
          cases hxs : xs.mapM f <;> rw [hxs] at h <;> cases h
          rfl
        obtain ⟨before, x', after, rfl, hbefore, hfail⟩ := ih hxs
        exact ⟨x :: before, x', after, rfl, List.forall_mem_cons.mpr ⟨⟨y, hx⟩, hbefore⟩, hfail⟩
  · rintro ⟨before, x, after, rfl, hbefore, hfail⟩
    induction before with
    | nil => simp [List.mapM_cons, hfail, bind, Except.bind]
    | cons b before ih =>
      obtain ⟨⟨y, hy⟩, hrest⟩ := List.forall_mem_cons.mp hbefore
      simp [List.mapM_cons, hy, ih hrest, bind, Except.bind]

end Traversal

/-! ### The whole text -/

theorem exists_holds_of_mem {pieces : List (List Char)} (h : List.Forall₂ Holds pieces vs) :
    ∀ p ∈ pieces, ∃ v, Holds p v := by
  induction h with
  | nil => simp
  | cons hp _ ih => exact List.forall_mem_cons.mpr ⟨⟨_, hp⟩, ih⟩

theorem Lists.exists_not_blank (h : Lists text vs) : ∃ c ∈ text, isBlank c = false := by
  obtain ⟨hne, pieces, rfl, hpieces⟩ := h
  cases hpieces with
  | nil => cases hne rfl
  | cons hp _ =>
    obtain ⟨c, hc, hblank⟩ := hp.exists_not_blank
    exact ⟨c, mem_intercalate List.mem_cons_self hc, hblank⟩

theorem mapM_parseValue_eq_ok_iff :
    (splitOn ',' text).mapM parseValue = .ok vs ↔ Lists text vs := by
  simp only [mapM_eq_ok_iff, parseValue_eq_ok_iff]
  constructor
  · intro h
    obtain ⟨hne, -, htext⟩ := splitOn_eq_iff.mp (Eq.refl (splitOn ',' text))
    refine ⟨?_, _, htext, h⟩
    rintro rfl
    exact hne (List.forall₂_nil_right_iff.mp h)
  · rintro ⟨hne, pieces, htext, h⟩
    -- No value is written with a comma, so these are the pieces that the text is split into.
    have hpure : ∀ p ∈ pieces, ',' ∉ p := by
      intro p hp
      obtain ⟨v, hv⟩ := exists_holds_of_mem h p hp
      exact hv.not_mem_comma
    have hpieces : pieces ≠ [] := by
      rintro rfl
      exact hne (List.forall₂_nil_left_iff.mp h)
    rwa [splitOn_eq_iff.mpr ⟨hpieces, hpure, htext⟩]

theorem mapM_parseValue_eq_error_iff {e : InputError} :
    (splitOn ',' text).mapM parseValue = .error e ↔
      ∃ piece, FirstBad text piece ∧ e = .notIntegers (trim piece) := by
  simp only [mapM_eq_error_iff, parseValue_eq_ok_iff, parseValue_eq_error_iff, splitOn_eq_iff]
  constructor
  · rintro ⟨before, piece, after, ⟨-, hpure, htext⟩, hbefore, hbad, rfl⟩
    exact ⟨piece, ⟨before, after, htext, hpure, hbefore, hbad⟩, rfl⟩
  · rintro ⟨piece, ⟨before, after, htext, hpure, hbefore, hbad⟩, rfl⟩
    exact ⟨before, piece, after, ⟨by simp, hpure, htext⟩, hbefore, hbad, rfl⟩

theorem parseValues_of_blank (h : ∀ c ∈ text, isBlank c = true) :
    parseValues text = .error .emptyList :=
  if_pos (List.all_eq_true.mpr h)

theorem parseValues_of_not_blank (h : ∃ c ∈ text, isBlank c = false) :
    parseValues text = (splitOn ',' text).mapM parseValue :=
  if_neg (by simpa [isBlankText] using h)

theorem blank_or_not_blank (text : List Char) :
    (∀ c ∈ text, isBlank c = true) ∨ ∃ c ∈ text, isBlank c = false := by
  by_cases h : ∀ c ∈ text, isBlank c = true
  · exact .inl h
  · exact .inr (by simpa using h)

theorem parseValues_eq_ok_iff : parseValues text = .ok vs ↔ Lists text vs := by
  rcases blank_or_not_blank text with hblank | hblank
  · rw [parseValues_of_blank hblank]
    constructor
    · intro h
      cases h
    · intro h
      obtain ⟨c, hc, hnot⟩ := h.exists_not_blank
      cases (hblank c hc).symm.trans hnot
  · rw [parseValues_of_not_blank hblank, mapM_parseValue_eq_ok_iff]

theorem parseValues_eq_error_iff {e : InputError} :
    parseValues text = .error e ↔
      (∀ c ∈ text, isBlank c = true) ∧ e = .emptyList ∨
      (∃ c ∈ text, isBlank c = false) ∧
        ∃ piece, FirstBad text piece ∧ e = .notIntegers (trim piece) := by
  rcases blank_or_not_blank text with hblank | hblank
  · rw [parseValues_of_blank hblank]
    constructor
    · rintro ⟨⟩
      exact .inl ⟨hblank, rfl⟩
    · rintro (⟨-, rfl⟩ | ⟨⟨c, hc, hnot⟩, -⟩)
      · rfl
      · cases (hblank c hc).symm.trans hnot
  · rw [parseValues_of_not_blank hblank, mapM_parseValue_eq_error_iff]
    have hnot : ¬∀ c ∈ text, isBlank c = true := by simpa using hblank
    simp [hblank, hnot]

/-- Exactly the lists of numerals are accepted, whatever white space they are padded with, and each
as the values it lists. A blank text is called empty. Any other text is refused with its leftmost
bad piece in quotes, without the white space around it. -/
theorem parseValues_exact (text : List Char) :
    (∀ vs, parseValues text = .ok vs ↔ Lists text vs) ∧
    (parseValues text = .error .emptyList ↔ ∀ c ∈ text, isBlank c = true) ∧
    (∀ shown, parseValues text = .error (.notIntegers shown) ↔
      (∃ c ∈ text, isBlank c = false) ∧
        ∃ piece, FirstBad text piece ∧ Padded shown piece ∧ Tight shown) ∧
    (∀ e, parseValues text = .error e →
      e = .emptyList ∧ e.toError = .invalidInput "list cannot be empty" ∨
      ∃ shown, e = .notIntegers shown ∧ e.toError = .invalidInput
        ("expected comma-separated integers, found " ++ String.ofList (quote shown))) ∧
    ∀ entries : List Entry, entries ≠ [] → text = [','].intercalate (entries.map Entry.written) →
      parseValues text = .ok (entries.map Entry.value) := by
  refine ⟨fun vs => parseValues_eq_ok_iff, ?_, fun shown => ?_, fun e he => ?_, ?_⟩
  · rw [parseValues_eq_error_iff]
    simp
  · rw [parseValues_eq_error_iff]
    simp [← trim_eq_iff, @eq_comm _ shown]
  · rcases parseValues_eq_error_iff.mp he with ⟨-, rfl⟩ | ⟨-, piece, -, rfl⟩
    · exact .inl ⟨rfl, rfl⟩
    · exact .inr ⟨trim piece, rfl, rfl⟩
  · rintro entries hne rfl
    refine parseValues_eq_ok_iff.mpr ⟨by simpa using hne, _, rfl, ?_⟩
    rw [List.forall₂_map_left_iff, List.forall₂_map_right_iff, List.forall₂_same]
    exact fun e _ => e.holds

theorem parseValues_exact_padded :
    parseValues "\u3000+007 ,-2147483648".toList = .ok [7, -2147483648] ∧
    parseValues " \t".toList = .error .emptyList ∧
    parseValues "7, x y ,".toList = .error (.notIntegers "x y".toList) := by
  refine ⟨?_, ?_, ?_⟩
  · obtain ⟨hok, -⟩ := parseValues_exact "\u3000+007 ,-2147483648".toList
    have hfirst : Holds "\u3000+007 ".toList 7 := holds_iff.mpr rfl
    have hsecond : Holds "-2147483648".toList (-2147483648) := holds_iff.mpr rfl
    exact (hok _).mpr ⟨by decide, _, rfl, .cons hfirst (.cons hsecond .nil)⟩
  · obtain ⟨-, hempty, -⟩ := parseValues_exact " \t".toList
    exact hempty.mpr (List.all_eq_true.mp rfl)
  · obtain ⟨-, -, hbad, -⟩ := parseValues_exact "7, x y ,".toList
    have hseven : Holds "7".toList 7 := holds_iff.mpr rfl
    have hnone : ∀ v, ¬Holds " x y ".toList v := by
      intro v hv
      cases holds_iff.mp hv
    refine (hbad _).mpr ⟨⟨'7', by decide, by decide⟩, " x y ".toList, ?_, trim_eq_iff.mp rfl⟩
    exact ⟨["7".toList], [[]], rfl, by decide, by simpa using ⟨7, hseven⟩, hnone⟩

end SumCluster.TaskInput
