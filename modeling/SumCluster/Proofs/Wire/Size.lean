import Mathlib.Data.List.Flatten
import SumCluster.Partition
import SumCluster.Proofs.Wire.Shortest

/-!
Subtasks are no longer than their task. A list takes as many bytes as its count and its items, so a
part of it takes no more, and what is written is the shortest form of what was read.
-/

namespace SumCluster.Wire

variable {values others : List Int32}

/-- Greater numbers do not take fewer bytes. -/
theorem Varint.length_encode_mono {n m : Nat} (h : n ≤ m) :
    (encode n).length ≤ (encode m).length := by
  unfold encode
  split_ifs <;> simp <;> omega

/-- A part of a list takes no more bytes than all of it. -/
theorem Body.length_encodeInts_sublist (h : values.Sublist others) :
    (encodeInts values).length ≤ (encodeInts others).length := by
  have hcount : (Varint.encode values.length).length ≤ (Varint.encode others.length).length :=
    Varint.length_encode_mono h.length_le
  have hitems : (values.flatMap encodeInt).length ≤ (others.flatMap encodeInt).length :=
    (h.flatMap encodeInt).length_le
  simp only [encodeInts, List.length_append]
  omega

namespace Message

variable {task : TaskRequest} {body : Bytes}

theorem length_subtaskRequest_sublist (h : values.Sublist task.values) :
    (subtaskRequest ⟨values, task.delayMs⟩).toBody.length ≤ (taskRequest task).toBody.length := by
  have hvalues := Body.length_encodeInts_sublist h
  simp only [length_toBody, Body.encodeFields, List.length_append]
  omega

/-- A subtask with some of the values of a task is no longer than the body in which the task came,
whichever form of the task that is. -/
theorem length_subtaskRequest_of_read (hread : ofBody body = .ok (.taskRequest task))
    (h : values.Sublist task.values) :
    (subtaskRequest ⟨values, task.delayMs⟩).toBody.length ≤ body.length :=
  Nat.le_trans (length_subtaskRequest_sublist h)
    (shortest_toBody _ body (ofBody_eq_ok_iff.mp hread)).1

end Message

end SumCluster.Wire

namespace SumCluster

/-- A share has some of the values, in order. -/
theorem Partition.slice_sublist {α : Type} (p : Partition) (values : List α) :
    (p.slice values).Sublist values :=
  (List.take_sublist _ _).trans (List.drop_sublist _ _)

end SumCluster
