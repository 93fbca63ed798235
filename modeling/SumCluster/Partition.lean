import SumCluster.Word

/-!
Cutting a list into contiguous shares of nearly equal length. With `len` values and `parts` takers
there are `min parts len` shares, none empty; the first `len % count` of them are one longer. A walk
over the list finds the shares one after the other, each starting where the one before ended; where
each of them lies can also be said at once.
-/

namespace SumCluster

/-- One share: its number, where it starts and how many values it has. -/
structure Partition where
  index : Nat
  start : Nat
  length : Nat
  deriving DecidableEq, Repr

namespace Partition

/-- The first position after the share. -/
def stop (p : Partition) : Nat := p.start + p.length

/-- The positions from the start up to the end; positions are machine words, so there are none if
the end does not fit one. -/
def range? (p : Partition) : Option (Nat × Nat) :=
  if p.stop < Word.limit64 then some (p.start, p.stop) else none

/-- The values of the share. -/
def slice {α : Type} (p : Partition) (values : List α) : List α :=
  (values.drop p.start).take p.length

/-- The values of the share, if it lies within the list. -/
def slice? {α : Type} (p : Partition) (values : List α) : Option (List α) :=
  if p.stop < Word.limit64 ∧ p.stop ≤ values.length then some (p.slice values) else none

/-- The shares with the given numbers as a walk over the list finds them, each starting where the
one before ended; its sums are those of machine words, and there are no shares if one does not
fit. -/
def walk? (base extra : Nat) : Nat → List Nat → Option (List Partition)
  | _, [] => some []
  | start, index :: more => do
    let length ← Word.add? base (if index < extra then 1 else 0)
    let stop ← Word.add? start length
    let shares ← walk? base extra stop more
    return ⟨index, start, length⟩ :: shares

end Partition

/-- The shares of `len` values for at most `parts` takers as the walk over the list finds them. -/
def partition? (len parts : Nat) : Option (List Partition) :=
  let count := min parts len
  if count = 0 then some [] else Partition.walk? (len / count) (len % count) 0 (List.range count)

/-- The shares of `len` values for at most `parts` takers, each by itself. -/
def partition (len parts : Nat) : List Partition :=
  let count := min parts len
  let base := len / count
  let extra := len % count
  (List.range count).map fun i => ⟨i, i * base + min i extra, base + if i < extra then 1 else 0⟩

/-- The shares of `values` themselves. -/
def split {α : Type} (values : List α) (parts : Nat) : List (List α) :=
  (partition values.length parts).map (·.slice values)

end SumCluster
