import SumCluster.Proofs.Registry.History

/-!
Taking out one handle. A handle has the id of its worker for good, but it is registered for that id
only until the worker registers again or is taken out; from then on it is stale. Main statement:
deregistering takes out exactly the handle that is meant, never a newer one with the same id, and
does nothing at all to a handle that has been deregistered before.
-/

namespace SumCluster

open Network (Link)

namespace Registry

variable {r : Registry} {h : HandleId}

/-! ### The handle of an id -/

/-- Two members with one id are one. -/
theorem Consistent.eq_of_workerId (hr : r.Consistent) {j : HandleId} (hj : j ∈ r.members)
    (hh : h ∈ r.members) (heq : r.workerId j = r.workerId h) : j = h :=
  List.inj_on_of_nodup_map hr.ids hj hh heq

/-- The handle that is registered for an id is the member that has it. -/
theorem Consistent.find?_eq_some_iff (hr : r.Consistent) {id : String} :
    r.find? id = some h ↔ h ∈ r.members ∧ r.workerId h = id := by
  constructor
  · exact find?_eq_some
  · rintro ⟨hm, rfl⟩
    cases hf : r.find? (r.workerId h) with
    | none => exact absurd (List.mem_map_of_mem hm) (find?_eq_none hf)
    | some old =>
      obtain ⟨hold, heq⟩ := find?_eq_some hf
      rw [hr.eq_of_workerId hold hm heq]

/-! ### Deregistering -/

theorem handles_deregister (r : Registry) (h j : HandleId) : (r.deregister h).2.handles[j]? =
    if h = j then r.handles[j]?.map Handle.kill else r.handles[j]? :=
  handles_update r h Handle.kill j

theorem isAlive_deregister (r : Registry) (h j : HandleId) :
    (r.deregister h).2.isAlive j = (r.isAlive j && h != j) := isAlive_kill r h j

/-- The trust in a handle that has none cannot be ended. -/
theorem kill_of_dead (hdead : r.isAlive h = false) : r.kill h = r := by
  have hhandles : (r.kill h).handles = r.handles := by
    refine List.ext_getElem? fun j => ?_
    rw [kill, handles_update]
    split
    · rename_i heq
      subst heq
      cases hh : r.handles[h]? with
      | none => rfl
      | some handle =>
        rw [isAlive, hh] at hdead
        rw [Option.map_some, Handle.kill, ← hdead]
    · rfl
  exact congrArg (fun handles => { r with handles }) hhandles

/-- A handle that is neither registered nor trusted is not deregistered. -/
theorem deregister_of_gone (hgone : h ∉ r.members) (hdead : r.isAlive h = false) :
    r.deregister h = (false, r) := by
  have hcontains : r.members.contains h = false := by simpa using hgone
  rw [deregister, hcontains, kill_of_dead hdead, List.erase_of_not_mem hgone]

/-- Deregistering a handle, be it registered or stale, says whether it is the one that is registered
for its id. From then on it is dead and out, and nothing has happened to anybody else; and whatever
is done later, deregistering it again says no and changes nothing. -/
theorem deregister_exact (hr : r.Reachable) (hlt : h < r.handles.length) :
    let r' := (r.deregister h).2
    ((r.deregister h).1 = true ↔ r.find? (r.workerId h) = some h) ∧
    r'.isAlive h = false ∧ h ∉ r'.members ∧
    r'.members = r.members.filter (· != h) ∧
    (∀ j, j ≠ h → r'.isAlive j = r.isAlive j ∧ r'.handles[j]? = r.handles[j]?) ∧
    ∀ later : List Act, (later.foldl act r').deregister h = (false, later.foldl act r') := by
  intro r'
  have hc := hr.consistent
  have hc' : r'.Consistent := hc.declines (declines_deregister r h)
  have hout : h ∉ r'.members := hc.sound.distinct.not_mem_erase
  refine ⟨?_, ?_, hout, ?_, fun j hj => ⟨?_, ?_⟩, fun later => ?_⟩
  · rw [hc.find?_eq_some_iff, and_iff_left rfl]
    exact List.contains_iff_mem
  · rw [isAlive_deregister, bne_self_eq_false, Bool.and_false]
  · exact hc.sound.distinct.erase_eq_filter h
  · rw [isAlive_deregister, bne_iff_ne.mpr hj.symm, Bool.and_true]
  · rw [handles_deregister, if_neg hj.symm]
  · -- Who is out stays out, and who is out is not trusted.
    have hlt' : h < r'.handles.length := (declines_deregister r h).count.symm ▸ hlt
    have hgone : h ∉ (later.foldl act r').members := fun hm =>
      hout ((precedes_foldl_act later r').members h hlt' hm)
    exact deregister_of_gone hgone <| Bool.eq_false_iff.mpr fun ha =>
      hgone ((hc'.foldl_act later).trusted h ha)

/-- A worker that has registered again, and one that came in between. -/
def reconnected : Registry :=
  after [.register "a" (.fresh 100 .silent [] 0), .register "b" (.fresh 100 .silent [] 0),
    .register "a" (.fresh 100 .silent [] 0)]

theorem deregister_exact_reconnected :
    reconnected.workerIds = ["a", "b"] ∧ reconnected.members = [2, 1] ∧
    reconnected.workerId 0 = "a" ∧
    (reconnected.deregister 0).1 = false ∧ (reconnected.deregister 0).2.members = [2, 1] ∧
    (reconnected.deregister 0).2.isAlive 2 = true ∧
    (reconnected.deregister 2).1 = true ∧ (reconnected.deregister 2).2.members = [1] ∧
    ∀ later : List Act, (later.foldl act (reconnected.deregister 2).2).deregister 2 =
      (false, later.foldl act (reconnected.deregister 2).2) := by
  obtain ⟨-, -, -, hmembers, hothers, -⟩ :=
    deregister_exact (r := reconnected) (h := 0) ⟨_, rfl⟩ (by decide)
  obtain ⟨hfound, -, -, -, -, hlater⟩ :=
    deregister_exact (r := reconnected) (h := 2) ⟨_, rfl⟩ (by decide)
  exact ⟨rfl, rfl, rfl, rfl, hmembers, (hothers 2 (by decide)).1, hfound.mpr rfl, rfl, hlater⟩

end Registry

end SumCluster
