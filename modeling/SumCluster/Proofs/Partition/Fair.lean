import Mathlib.Algebra.Ring.Nat
import Mathlib.Data.List.Chain
import SumCluster.Proofs.Partition

/-!
The one fair way to share. Shares that follow one another, none of them empty and none longer than
the one before, the first and the last next to each other in length: that leaves nothing open. So
level lengths add up to the length of the list in one way only, and the lengths decide where the
shares are. No position on the way is behind the end of the list, so a walk over a list whose length
is a machine word takes no sum that is too great for one.
-/

namespace SumCluster

namespace Partition

variable {len parts count : Nat} {ps : List Partition}

/-- A fair way to share `len` values among at most `parts` takers: there are as many shares as takers
or values, they lie one behind the other from the first value to the last, and the longer ones come
first. -/
structure Fair (len parts : Nat) (ps : List Partition) : Prop where
  count : ps.length = min len parts
  numbered : ∀ (i : Nat) (p : Partition), ps[i]? = some p → p.index = i
  first : ∀ p ∈ ps.head?, p.start = 0
  next : ps.IsChain fun p q => q.start = p.stop
  last : ∀ p ∈ ps.getLast?, p.stop = len
  filled : ∀ p ∈ ps, 0 < p.length
  falling : ps.IsChain fun p q => q.length ≤ p.length
  close : ∀ p ∈ ps.head?, ∀ q ∈ ps.getLast?, p.length ≤ q.length + 1 ∧ q.length ≤ p.length + 1

/-! ### The shares are fair -/

/-- Share `i` of `count`. -/
def share (len count i : Nat) : Partition :=
  ⟨i, cut len count i, len / count + if i < len % count then 1 else 0⟩

theorem partition_eq_map_share (len parts : Nat) :
    partition len parts = (List.range (min parts len)).map (share len (min parts len)) := rfl

@[simp]
theorem stop_share (len count i : Nat) : (share len count i).stop = cut len count (i + 1) :=
  (cut_succ len count i).symm

theorem length_share_pos (h : 0 < count) (hle : count ≤ len) (i : Nat) :
    0 < (share len count i).length :=
  Nat.add_pos_left (Nat.div_pos hle h) _

theorem length_share_succ_le (len count i : Nat) :
    (share len count (i + 1)).length ≤ (share len count i).length := by
  simp only [share]
  split <;> split <;> omega

theorem length_share_le (len count i j : Nat) :
    (share len count i).length ≤ (share len count j).length + 1 := by
  simp only [share]
  split <;> split <;> omega

/-- What holds between each share and the next holds along all of them. -/
theorem isChain_partition {R : Partition → Partition → Prop}
    (h : ∀ i, R (share len (min parts len) i) (share len (min parts len) (i + 1))) :
    (partition len parts).IsChain R := by
  rw [List.isChain_iff_getElem]
  intro i hi
  simpa [partition_eq_map_share] using h i

theorem mem_partition {p : Partition} :
    p ∈ partition len parts ↔ ∃ i < min parts len, share len (min parts len) i = p := by
  simp [partition_eq_map_share]

/-- No share reaches behind the end of the list. -/
theorem stop_le_of_mem {p : Partition} (h : p ∈ partition len parts) : p.stop ≤ len := by
  obtain ⟨i, hi, rfl⟩ := mem_partition.mp h
  rw [stop_share]
  exact cut_le hi (Nat.zero_lt_of_lt hi)

/-- The first share starts where the list does. -/
theorem start_of_mem_head? {p : Partition} (h : p ∈ (partition len parts).head?) :
    p.start = 0 := by
  obtain ⟨i, hi, rfl⟩ : ∃ i ∈ (List.range (min parts len)).head?,
      share len (min parts len) i = p := by
    simpa [partition_eq_map_share] using h
  obtain ⟨-, rfl⟩ : min parts len ≠ 0 ∧ 0 = i := by simpa [List.head?_range] using hi
  simp [share, cut]

/-- The last share stops where the list does. -/
theorem stop_of_mem_getLast? {p : Partition} (h : p ∈ (partition len parts).getLast?) :
    p.stop = len := by
  obtain ⟨i, hi, rfl⟩ : ∃ i ∈ (List.range (min parts len)).getLast?,
      share len (min parts len) i = p := by
    simpa [partition_eq_map_share] using h
  obtain ⟨hcount, rfl⟩ : min parts len ≠ 0 ∧ min parts len - 1 = i := by
    simpa [List.getLast?_range] using hi
  have hpos : 0 < min parts len := Nat.pos_of_ne_zero hcount
  rw [stop_share, Nat.sub_add_cancel hpos, cut_count hpos]

theorem fair_partition (len parts : Nat) : Fair len parts (partition len parts) where
  count := by rw [length_partition, Nat.min_comm]
  numbered _ _ := index_of_getElem?
  first _ := start_of_mem_head?
  next := isChain_partition fun i => (stop_share _ _ i).symm
  last _ := stop_of_mem_getLast?
  filled p hp := by
    obtain ⟨i, hi, rfl⟩ := mem_partition.mp hp
    exact length_share_pos (Nat.zero_lt_of_lt hi) (Nat.min_le_right _ _) i
  falling := isChain_partition (length_share_succ_le _ _)
  close p hp q hq := by
    obtain ⟨i, -, rfl⟩ := mem_partition.mp (List.mem_of_mem_head? hp)
    obtain ⟨j, -, rfl⟩ := mem_partition.mp (List.mem_of_mem_getLast? hq)
    exact ⟨length_share_le _ _ i j, length_share_le _ _ j i⟩

/-! ### No other way is fair -/

/-- Lengths that never grow and differ by one at most. -/
def Level (lengths : List Nat) : Prop :=
  lengths.Pairwise fun a b => b ≤ a ∧ a ≤ b + 1

/-- Lengths that are `a` or one less add up to as many times `a`, short of one for each at most. -/
theorem sum_of_close {a : Nat} {lengths : List Nat} (h : ∀ b ∈ lengths, b ≤ a ∧ a ≤ b + 1) :
    lengths.sum ≤ lengths.length * a ∧ lengths.length * a ≤ lengths.sum + lengths.length := by
  induction lengths with
  | nil => simp
  | cons b lengths ih =>
    obtain ⟨hb, hmore⟩ := List.forall_mem_cons.mp h
    obtain ⟨hle, hge⟩ := ih hmore
    simp only [List.sum_cons, List.length_cons, Nat.add_mul, Nat.one_mul]
    omega

/-- The first of level lengths is their mean, rounded up. -/
theorem Level.head_eq {a : Nat} {lengths : List Nat} (h : Level (a :: lengths)) :
    a = (a + lengths.sum + lengths.length) / (lengths.length + 1) := by
  obtain ⟨hle, hge⟩ := sum_of_close (List.pairwise_cons.mp h).1
  refine (Nat.div_eq_of_lt_le ?_ ?_).symm <;>
    simp only [Nat.mul_add, Nat.add_mul, Nat.mul_comm a, Nat.one_mul, Nat.mul_one] <;> omega

/-- Level lengths are decided by how many they are and what they add up to. -/
theorem Level.unique {lengths others : List Nat} (h : Level lengths) (h' : Level others)
    (hlength : lengths.length = others.length) (hsum : lengths.sum = others.sum) :
    lengths = others := by
  induction lengths generalizing others with
  | nil => exact (List.length_eq_zero_iff.mp hlength.symm).symm
  | cons a lengths ih =>
    obtain ⟨b, others, rfl⟩ := List.exists_cons_of_length_eq_add_one hlength.symm
    simp only [List.length_cons, Nat.add_right_cancel_iff, List.sum_cons] at hlength hsum
    obtain rfl : a = b := h.head_eq.trans (by rw [hsum, hlength]; exact h'.head_eq.symm)
    rw [ih (List.pairwise_cons.mp h).2 (List.pairwise_cons.mp h').2 hlength (by omega)]

/-- Of lengths that never grow, the first is the greatest and the last is the least. -/
theorem le_of_falling {lengths : List Nat} (h : lengths.Pairwise (· ≥ ·)) {first last : Nat}
    (hfirst : first ∈ lengths.head?) (hlast : last ∈ lengths.getLast?) {a : Nat}
    (ha : a ∈ lengths) : last ≤ a ∧ a ≤ first := by
  constructor
  · obtain ⟨front, rfl⟩ := List.getLast?_eq_some_iff.mp hlast
    rcases List.mem_append.mp ha with ha | ha
    · exact (List.pairwise_append.mp h).2.2 a ha last (List.mem_singleton_self last)
    · exact Nat.le_of_eq (List.mem_singleton.mp ha).symm
  · obtain ⟨rest, rfl⟩ := List.head?_eq_some_iff.mp hfirst
    rcases List.mem_cons.mp ha with rfl | ha
    · exact Nat.le_refl a
    · exact (List.pairwise_cons.mp h).1 a ha

theorem Fair.level (h : Fair len parts ps) : Level (ps.map length) := by
  have hfalling : (ps.map length).Pairwise (· ≥ ·) :=
    List.isChain_iff_pairwise.mp ((List.isChain_map length).mpr h.falling)
  refine hfalling.imp_of_mem fun {a b} ha hb hle => ⟨hle, ?_⟩
  have hne : ps ≠ [] := by
    rintro rfl
    simp at ha
  have hfirst : ps.head hne ∈ ps.head? := List.head?_eq_some_head hne
  have hlast : ps.getLast hne ∈ ps.getLast? := List.getLast?_eq_some_getLast hne
  have hbounds {c : Nat} (hc : c ∈ ps.map length) :
      (ps.getLast hne).length ≤ c ∧ c ≤ (ps.head hne).length :=
    le_of_falling hfalling (by simp [List.head?_eq_some_head hne])
      (by simp [List.getLast?_eq_some_getLast hne]) hc
  calc a ≤ (ps.head hne).length := (hbounds ha).2
    _ ≤ (ps.getLast hne).length + 1 := (h.close _ hfirst _ hlast).1
    _ ≤ b + 1 := Nat.add_le_add_right (hbounds hb).1 1

/-- Shares lying one behind the other end where their lengths together do. -/
theorem stop_of_chain {start : Nat} (hfirst : ∀ p ∈ ps.head?, p.start = start)
    (hnext : ps.IsChain fun p q => q.start = p.stop) {p : Partition} (hp : p ∈ ps.getLast?) :
    p.stop = start + (ps.map length).sum := by
  induction ps generalizing start with
  | nil => simp at hp
  | cons first ps ih =>
    obtain rfl : first.start = start := hfirst _ rfl
    obtain ⟨hstart, hnext⟩ := List.isChain_cons.mp hnext
    cases ps with
    | nil =>
      obtain rfl : first = p := by simpa using hp
      simp [stop]
    | cons second ps =>
      rw [ih hstart hnext (by simpa using hp)]
      simp [stop, Nat.add_assoc]

theorem Fair.sum_eq (h : Fair len parts ps) (hne : ps ≠ []) : (ps.map length).sum = len := by
  have hlast : ps.getLast hne ∈ ps.getLast? := List.getLast?_eq_some_getLast hne
  rw [← h.last _ hlast, stop_of_chain h.first h.next hlast, Nat.zero_add]

/-- Shares of the given lengths lying one behind the other, numbered from `index` on. -/
def lay (index start : Nat) : List Nat → List Partition
  | [] => []
  | length :: lengths => ⟨index, start, length⟩ :: lay (index + 1) (start + length) lengths

/-- Shares that are numbered and lie one behind the other are where their lengths put them. -/
theorem eq_lay {index start : Nat}
    (hnumbered : ∀ (i : Nat) (p : Partition), ps[i]? = some p → p.index = index + i)
    (hfirst : ∀ p ∈ ps.head?, p.start = start) (hnext : ps.IsChain fun p q => q.start = p.stop) :
    ps = lay index start (ps.map length) := by
  induction ps generalizing index start with
  | nil => rfl
  | cons p ps ih =>
    obtain ⟨i, s, l⟩ := p
    obtain rfl : i = index := hnumbered 0 _ rfl
    obtain rfl : s = start := hfirst _ rfl
    obtain ⟨hstart, hnext⟩ := List.isChain_cons.mp hnext
    have hnumbered' (j : Nat) (q : Partition) (hq : ps[j]? = some q) : q.index = i + 1 + j := by
      rw [hnumbered (j + 1) q (by simpa using hq)]
      omega
    exact congrArg _ (ih hnumbered' hstart hnext)

/-- The lengths decide where everything is. -/
theorem Fair.eq_lay (h : Fair len parts ps) : ps = lay 0 0 (ps.map length) :=
  Partition.eq_lay (by simpa using h.numbered) h.first h.next

/-- There is one fair way to share. -/
theorem Fair.unique {qs : List Partition} (h : Fair len parts ps) (h' : Fair len parts qs) :
    ps = qs := by
  have hcount : (ps.map length).length = (qs.map length).length := by
    rw [List.length_map, List.length_map, h.count, h'.count]
  have hsum : (ps.map length).sum = (qs.map length).sum := by
    by_cases hne : ps = []
    · subst hne
      obtain rfl : qs = [] := List.length_eq_zero_iff.mp (by simpa using hcount.symm)
      rfl
    · have hne' : qs ≠ [] := by
        rintro rfl
        exact hne (List.length_eq_zero_iff.mp (by simpa using hcount))
      rw [h.sum_eq hne, h'.sum_eq hne']
  rw [h.eq_lay, h'.eq_lay, h.level.unique h'.level hcount hsum]

/-! ### The walk over the list -/

/-- The walk from the cut before share `i` finds the next `n`. -/
theorem walk?_cut (hlen : len < Word.limit64) (n i : Nat) (h : i + n ≤ count) :
    walk? (len / count) (len % count) (cut len count i) (List.range' i n) =
      some ((List.range' i n).map (share len count)) := by
  induction n generalizing i with
  | zero => rfl
  | succ n ih =>
    have hcut : cut len count (i + 1) ≤ len := cut_le (by omega) (by omega)
    have hsum : cut len count i + (share len count i).length = cut len count (i + 1) :=
      stop_share len count i
    have hlength : Word.add? (len / count) (if i < len % count then 1 else 0) =
        some (share len count i).length := if_pos (by simp only [share] at hsum; omega)
    have hstop : Word.add? (cut len count i) (share len count i).length =
        some (cut len count (i + 1)) := by rw [Word.add?, if_pos (by omega), hsum]
    simp only [List.range'_succ, walk?, hlength, hstop, Option.bind_eq_bind, Option.bind_some,
      ih (i + 1) (by omega), List.map_cons]
    rfl

end Partition

/-- The walk over a list whose length is a machine word finds the shares. -/
theorem partition?_eq {len : Nat} (parts : Nat) (h : len < Word.limit64) :
    partition? len parts = some (partition len parts) := by
  rw [partition?, Partition.partition_eq_map_share]
  split_ifs with hcount
  · simp [hcount]
  · have hwalk := Partition.walk?_cut h (min parts len) 0 (Nat.le_of_eq (Nat.zero_add _))
    rwa [Partition.cut, Nat.zero_mul, Nat.zero_min, ← List.range_eq_range'] at hwalk

/-- The shares are the one fair way to share the values. No sum on the way to them is too great for
a machine word that holds the length of the list, each lies within the list, and one after the
other they are the list. -/
theorem partition_fair_unique {α : Type} (len parts : Nat) (hlen : len < Word.limit64) :
    (∀ ps, Partition.Fair len parts ps ↔ ps = partition len parts) ∧
    partition? len parts = some (partition len parts) ∧
    (∀ p ∈ partition len parts, p.stop ≤ len ∧ p.range? = some (p.start, p.stop)) ∧
    (∀ values : List α, values.length = len →
      ∀ p ∈ partition len parts, p.slice? values = some (p.slice values)) ∧
    ∀ values : List α, 0 < parts → (split values parts).flatten = values := by
  refine ⟨fun ps => ⟨fun h => ?_, ?_⟩, partition?_eq parts hlen, fun p hp => ?_, ?_,
    fun values hparts => flatten_split values hparts⟩
  · exact h.unique (Partition.fair_partition len parts)
  · rintro rfl
    exact Partition.fair_partition len parts
  · have hstop : p.stop ≤ len := Partition.stop_le_of_mem hp
    exact ⟨hstop, if_pos (Nat.lt_of_le_of_lt hstop hlen)⟩
  · rintro values rfl p hp
    have hstop : p.stop ≤ values.length := Partition.stop_le_of_mem hp
    exact if_pos ⟨Nat.lt_of_le_of_lt hstop hlen, hstop⟩

/-- The longest list there can be, shared among four. -/
theorem partition_fair_unique_longest :
    partition? 18446744073709551615 4 = some [⟨0, 0, 4611686018427387904⟩,
      ⟨1, 4611686018427387904, 4611686018427387904⟩,
      ⟨2, 9223372036854775808, 4611686018427387904⟩,
      ⟨3, 13835058055282163712, 4611686018427387903⟩] ∧
    ∀ ps, Partition.Fair 18446744073709551615 4 ps → ps = partition 18446744073709551615 4 :=
  have h := partition_fair_unique (α := Nat) 18446744073709551615 4 (by decide)
  ⟨h.2.1.trans (by decide), fun ps => (h.1 ps).mp⟩

end SumCluster
