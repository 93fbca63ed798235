import Mathlib.Data.List.Basic
import SumCluster.Partition

/-!
The shares of a list cover it. Share by share, from the first on, they give the list back, so what
is put together from all shares has taken in every value once and in order.
-/

namespace SumCluster

variable {α : Type}

/-- Where share `i` starts, and share `i - 1` ends. -/
def Partition.cut (len count i : Nat) : Nat := i * (len / count) + min i (len % count)

theorem length_partition (len parts : Nat) : (partition len parts).length = min parts len := by
  simp [partition]

/-- Shares are numbered from the first on. -/
theorem index_of_getElem? {len parts i : Nat} {p : Partition}
    (h : (partition len parts)[i]? = some p) : p.index = i := by
  rw [partition, List.getElem?_map] at h
  obtain ⟨j, hj, rfl⟩ := Option.map_eq_some_iff.mp h
  obtain ⟨hlt, hj⟩ := List.getElem?_eq_some_iff.mp hj
  exact hj.symm.trans (List.getElem_range hlt)

theorem length_split (values : List α) (parts : Nat) :
    (split values parts).length = min parts values.length := by
  rw [split, List.length_map, length_partition]

/-- A share is as long as the way to the next cut. -/
theorem Partition.cut_succ (len count i : Nat) : cut len count (i + 1) =
    cut len count i + (len / count + if i < len % count then 1 else 0) := by
  simp only [cut, Nat.add_mul, Nat.one_mul]
  split <;> omega

theorem Partition.cut_count {len count : Nat} (h : 0 < count) : cut len count count = len := by
  have hextra : len % count < count := Nat.mod_lt len h
  rw [cut, Nat.min_eq_right (Nat.le_of_lt hextra)]
  exact Nat.div_add_mod len count

/-- No cut is behind the end of the list. -/
theorem Partition.cut_le {len count i : Nat} (hi : i ≤ count) (h : 0 < count) :
    cut len count i ≤ len := by
  have hbase : i * (len / count) ≤ count * (len / count) := Nat.mul_le_mul_right _ hi
  have hextra : min i (len % count) ≤ min count (len % count) :=
    by omega
  calc cut len count i ≤ cut len count count := Nat.add_le_add hbase hextra
    _ = len := cut_count h

/-- The first shares together are everything up to the next cut. -/
theorem flatten_shares (values : List α) (len count k : Nat) :
    ((List.range k).map fun i => (values.drop (Partition.cut len count i)).take
      (len / count + if i < len % count then 1 else 0)).flatten =
        values.take (Partition.cut len count k) := by
  induction k with
  | zero => simp [Partition.cut]
  | succ k ih =>
    rw [List.range_succ, List.map_append, List.flatten_append, ih, Partition.cut_succ,
      List.take_add]
    simp

/-- The shares for at least one taker are the whole list. -/
theorem flatten_split (values : List α) {parts : Nat} (h : 0 < parts) :
    (split values parts).flatten = values := by
  cases hlen : values.length with
  | zero =>
    obtain rfl := List.length_eq_zero_iff.mp hlen
    simp [split, partition]
  | succ n =>
    have hcount : 0 < min parts values.length := by omega
    rw [split, partition, List.map_map]
    have hshares := flatten_shares values values.length (min parts values.length)
      (min parts values.length)
    rw [Partition.cut_count hcount, List.take_length] at hshares
    exact hshares

/-- Each share lies within the list, so it has as many values as it says. -/
theorem length_of_getElem?_split {values slice : List α} {parts i : Nat}
    (h : (split values parts)[i]? = some slice) :
    slice.length = values.length / min parts values.length +
      if i < values.length % min parts values.length then 1 else 0 := by
  rw [split, partition, List.map_map, List.getElem?_map] at h
  obtain ⟨j, hj, rfl⟩ := Option.map_eq_some_iff.mp h
  obtain ⟨hlt, hj⟩ := List.getElem?_eq_some_iff.mp hj
  rw [List.length_range] at hlt
  rw [List.getElem_range] at hj
  subst hj
  have hstop : Partition.cut values.length (min parts values.length) (i + 1) ≤ values.length :=
    Partition.cut_le hlt (Nat.lt_of_le_of_lt (Nat.zero_le i) hlt)
  rw [Partition.cut_succ] at hstop
  simp only [Function.comp, Partition.slice, List.length_take, List.length_drop]
  rw [Partition.cut] at hstop
  omega

/-- No share is empty. -/
theorem length_pos_of_mem_split {values slice : List α} {parts : Nat}
    (h : slice ∈ split values parts) : 0 < slice.length := by
  obtain ⟨i, hi⟩ := List.mem_iff_getElem?.mp h
  have hcount : i < min parts values.length := by
    rw [← length_split]
    exact (List.getElem?_eq_some_iff.mp hi).1
  have hbase : 0 < values.length / min parts values.length :=
    Nat.div_pos (Nat.min_le_right _ _) (Nat.lt_of_le_of_lt (Nat.zero_le i) hcount)
  rw [length_of_getElem?_split hi]
  exact Nat.add_pos_left hbase _

/-- No share has two values more than another. -/
theorem length_le_of_mem_split {values slice other : List α} {parts : Nat}
    (h : slice ∈ split values parts) (h' : other ∈ split values parts) :
    slice.length ≤ other.length + 1 := by
  obtain ⟨i, hi⟩ := List.mem_iff_getElem?.mp h
  obtain ⟨j, hj⟩ := List.mem_iff_getElem?.mp h'
  rw [length_of_getElem?_split hi, length_of_getElem?_split hj]
  split <;> split <;> omega

end SumCluster
