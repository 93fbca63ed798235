import Mathlib.Data.List.Nodup
import SumCluster.Registry

/-!
The registered handles are distinct, and each of them was given its number when it was registered.
A new handle gets a number that no other has, and no handle loses its number by leaving.
-/

namespace SumCluster

namespace Registry

/-- The registered handles are distinct ones of the handles there ever were. -/
structure Sound (r : Registry) : Prop where
  distinct : r.members.Nodup
  numbered : ∀ h ∈ r.members, h < r.handles.length

variable {r : Registry}

theorem sound_empty : empty.Sound := ⟨List.nodup_nil, nofun⟩

/-- Handles may leave the registry, but keep their numbers. -/
theorem Sound.of_sublist {r' : Registry} (hr : r.Sound) (members : r'.members.Sublist r.members)
    (count : r'.handles.length = r.handles.length) : r'.Sound := by
  constructor
  · exact members.nodup hr.distinct
  · intro h hh
    rw [count]
    exact hr.numbered h (members.subset hh)

/-- A change to one handle is a change to no other. -/
theorem handles_update (r : Registry) (h : HandleId) (f : Handle → Handle) (j : HandleId) :
    (r.update h f).handles[j]? = if h = j then r.handles[j]?.map f else r.handles[j]? := by
  rw [update, List.getElem?_modify]
  split <;> simp

theorem length_handles_update (r : Registry) (h : HandleId) (f : Handle → Handle) :
    (r.update h f).handles.length = r.handles.length := List.length_modify ..

/-- The number of a new handle is none that was given before. -/
theorem Sound.register (hr : r.Sound) (id : String) (link : Network.Link) :
    (r.register id link).2.Sound := by
  have hnew : r.handles.length ∉ r.members := fun h => Nat.lt_irrefl _ (hr.numbered _ h)
  unfold Registry.register
  cases r.find? id with
  | none =>
    constructor
    · exact List.nodup_append'.mpr ⟨hr.distinct, List.nodup_singleton _, by simpa using hnew⟩
    · intro h hh
      simp only [List.length_append, List.length_singleton]
      rcases List.mem_append.mp hh with hh | hh
      · exact Nat.lt_succ_of_lt (hr.numbered h hh)
      · obtain rfl := List.mem_singleton.mp hh
        exact Nat.lt_succ_self _
  | some old =>
    constructor
    · refine hr.distinct.map_on ?_
      intro h hh h' hh' heq
      split at heq <;> split at heq
      · simp_all
      · exact absurd (heq ▸ hh') hnew
      · exact absurd (heq ▸ hh) hnew
      · exact heq
    · intro h hh
      obtain ⟨h', hh', rfl⟩ := List.mem_map.mp hh
      simp only [List.length_append, List.length_singleton, Registry.kill, length_handles_update]
      split
      · exact Nat.lt_succ_self _
      · exact Nat.lt_succ_of_lt (hr.numbered h' hh')

end Registry

end SumCluster
