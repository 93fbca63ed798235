import SumCluster.Proofs.Registry.Trust

/-!
A registry in the course of time. Whatever is done to one that began empty, the registered workers
have distinct ids, and whoever is still trusted is registered: what leaves the registry is dead, and
does not come back.
-/

namespace SumCluster

open Network (Link)
open Wire (SubtaskRequest)

namespace Registry

variable {r r' r'' : Registry} {h : HandleId}

/-! ### The invariant -/

/-- Everybody is registered once and under an id of its own, and the trust is in members only. -/
structure Consistent (r : Registry) : Prop where
  sound : r.Sound
  ids : r.workerIds.Nodup
  trusted : ∀ h, r.isAlive h = true → h ∈ r.members

theorem consistent_empty : empty.Consistent := ⟨sound_empty, List.nodup_nil, nofun⟩

/-- Taking away keeps the invariant. -/
theorem Consistent.declines (hr : r.Consistent) (hd : r.Declines r') : r'.Consistent := by
  refine ⟨hr.sound.declines hd, ?_, ?_⟩
  · have hids : r'.workerIds = r'.members.map r.workerId :=
      List.map_congr_left fun h _ => hd.workerId h
    rw [hids]
    exact (hd.members.map r.workerId).nodup hr.ids
  · intro h ha
    by_contra hn
    have hdead := hd.left h (hr.trusted h (hd.alive h ha)) hn
    exact absurd ha (by simp [hdead])

/-! ### Registering -/

section

variable {id : String} {link : Link} {x : Handle}

theorem workerId_of_lt (hx : r'.handles = r.handles ++ [x]) (hlt : h < r.handles.length) :
    r'.workerId h = r.workerId h := by
  rw [workerId, hx, List.getElem?_append_left hlt, workerId]

theorem workerId_new (hx : r'.handles = r.handles ++ [x]) :
    r'.workerId r.handles.length = x.workerId := by
  simp [workerId, hx]

theorem isAlive_of_lt (hx : r'.handles = r.handles ++ [x]) (hlt : h < r.handles.length) :
    r'.isAlive h = r.isAlive h := by
  rw [isAlive, hx, List.getElem?_append_left hlt, isAlive]

/-- Only handles that there are can be trusted. -/
theorem lt_of_isAlive (ha : r.isAlive h = true) : h < r.handles.length := by
  by_contra hge
  rw [isAlive, List.getElem?_eq_none (Nat.not_lt.mp hge)] at ha
  cases ha

theorem find?_eq_some {old : HandleId} (hf : r.find? id = some old) :
    old ∈ r.members ∧ r.workerId old = id :=
  ⟨List.mem_of_find?_eq_some hf, by simpa using List.find?_some hf⟩

theorem find?_eq_none (hf : r.find? id = none) : id ∉ r.workerIds := by
  intro hid
  obtain ⟨h, hm, rfl⟩ := List.mem_map.mp hid
  simpa using List.find?_eq_none.mp hf h hm

theorem register_of_none (hf : r.find? id = none) : r.register id link =
    (r.handles.length, ⟨r.handles ++ [.fresh id link], r.members ++ [r.handles.length]⟩) := by
  rw [register, hf]

theorem register_of_some {old : HandleId} (hf : r.find? id = some old) : r.register id link =
    (r.handles.length, ⟨(r.kill old).handles ++ [.fresh id link],
      r.members.map fun h => if h = old then r.handles.length else h⟩) := by
  rw [register, hf]

/-- A worker whose id nobody has comes last. -/
theorem Consistent.register_of_none (hr : r.Consistent) (hf : r.find? id = none) :
    (r.register id link).2.Consistent := by
  have hsound := hr.sound.register id link
  rw [Registry.register_of_none hf] at hsound ⊢
  refine ⟨hsound, ?_, ?_⟩
  · have hold : ∀ h ∈ r.members, workerId ⟨r.handles ++ [.fresh id link],
        r.members ++ [r.handles.length]⟩ h = r.workerId h := fun h hm =>
      workerId_of_lt rfl (hr.sound.numbered h hm)
    rw [workerIds, List.map_append, List.map_congr_left hold, List.map_singleton,
      workerId_new rfl]
    refine List.nodup_append'.mpr ⟨hr.ids, List.nodup_singleton _, ?_⟩
    exact List.disjoint_singleton.mpr (find?_eq_none hf)
  · intro h ha
    have hlt := lt_of_isAlive ha
    rw [List.length_append, List.length_singleton, Nat.lt_succ_iff_lt_or_eq] at hlt
    rcases hlt with hlt | rfl
    · rw [isAlive_of_lt rfl hlt] at ha
      exact List.mem_append_left _ (hr.trusted h ha)
    · exact List.mem_append_right _ (List.mem_singleton.mpr rfl)

/-- A worker with the id of another takes its place. -/
theorem Consistent.register_of_some (hr : r.Consistent) {old : HandleId}
    (hf : r.find? id = some old) : (r.register id link).2.Consistent := by
  have hsound := hr.sound.register id link
  obtain ⟨hmem, rfl⟩ := find?_eq_some hf
  have hcount := length_handles_update r old Handle.kill
  rw [Registry.register_of_some hf] at hsound ⊢
  refine ⟨hsound, ?_, ?_⟩
  · -- The new handle has the id of the old one, so the list of ids is the same.
    have hids : ∀ h ∈ r.members, workerId ⟨(r.kill old).handles ++ [.fresh (r.workerId old) link],
        r.members.map fun h => if h = old then r.handles.length else h⟩
          (if h = old then r.handles.length else h) = r.workerId h := by
      intro h hm
      split
      · rename_i heq
        rw [heq, ← hcount]
        exact workerId_new (r := r.kill old) (x := .fresh (r.workerId old) link) rfl
      · rw [workerId_of_lt (r := r.kill old) rfl (hcount.symm ▸ hr.sound.numbered h hm),
          workerId_kill]
    rw [workerIds, List.map_map]
    exact (List.map_congr_left hids).symm ▸ hr.ids
  · intro h ha
    have hlt := lt_of_isAlive ha
    rw [List.length_append, List.length_singleton, Nat.lt_succ_iff_lt_or_eq] at hlt
    rcases hlt with hlt | rfl
    · rw [isAlive_of_lt (r := r.kill old) rfl hlt, isAlive_kill, Bool.and_eq_true,
        bne_iff_ne] at ha
      exact List.mem_map.mpr ⟨h, hr.trusted h ha.1, if_neg (Ne.symm ha.2)⟩
    · exact List.mem_map.mpr ⟨old, hmem, (if_pos rfl).trans hcount.symm⟩

theorem Consistent.register (hr : r.Consistent) (id : String) (link : Link) :
    (r.register id link).2.Consistent := by
  cases hf : r.find? id with
  | none => exact hr.register_of_none hf
  | some old => exact hr.register_of_some hf

end

/-! ### Whatever happens -/

/-- Something that happens to a registry. A round that other acts interrupt is its calls and the
deregistrations of the workers that fail, one by one. -/
inductive Act where
  | register (id : String) (link : Link)
  | remove (id : String)
  | deregister (h : HandleId)
  | clear
  /-- A call on a handle, registered or not. -/
  | call (h : HandleId) (start : Nanos) (request : SubtaskRequest) (limit : Option Nanos)
  /-- The worker behind a handle disappears. -/
  | cut (h : HandleId) (t : Nanos)
  /-- Rounds over any snapshots, with their moves in any order. -/
  | dispatch (moves : List Move) (rounds : List Round)

/-- What an act leaves of a registry. -/
def act (r : Registry) : Act → Registry
  | .register id link => (r.register id link).2
  | .remove id => (r.remove id).2
  | .deregister h => (r.deregister h).2
  | .clear => r.clear
  | .call h start request limit => (r.call h start request limit).2
  | .cut h t => r.cut h t
  | .dispatch moves rounds => (r.dispatchWith moves rounds).2

/-- The registry after some acts, from the empty one on. -/
def after (acts : List Act) : Registry := acts.foldl act empty

/-- The handles that an act replaces, removes, deregisters or clears. -/
def Act.ousts (r : Registry) : Act → List HandleId
  | .register id _ => (r.find? id).toList
  | .remove id => (r.find? id).toList
  | .deregister h => [h]
  | .clear => r.members
  | _ => []

/-- A handle that has left never comes back. -/
structure Precedes (r r' : Registry) : Prop where
  count : r.handles.length ≤ r'.handles.length
  members : ∀ h < r.handles.length, h ∈ r'.members → h ∈ r.members

theorem Precedes.trans (h₁ : r.Precedes r') (h₂ : r'.Precedes r'') : r.Precedes r'' :=
  ⟨Nat.le_trans h₁.count h₂.count, fun h hlt hm =>
    h₁.members h hlt (h₂.members h (Nat.lt_of_lt_of_le hlt h₁.count) hm)⟩

theorem Declines.precedes (hd : r.Declines r') : r.Precedes r' :=
  ⟨Nat.le_of_eq hd.count.symm, fun _ _ hm => hd.members.subset hm⟩

theorem precedes_register (r : Registry) (id : String) (link : Link) :
    r.Precedes (r.register id link).2 := by
  cases hf : r.find? id with
  | none =>
    rw [register_of_none hf]
    refine ⟨by simp, fun h hlt hm => ?_⟩
    rcases List.mem_append.mp hm with hm | hm
    · exact hm
    · exact absurd (List.mem_singleton.mp hm) (Nat.ne_of_lt hlt)
  | some old =>
    rw [register_of_some hf]
    refine ⟨by simp [kill, length_handles_update], fun h hlt hm => ?_⟩
    obtain ⟨h', hm', heq⟩ := List.mem_map.mp hm
    split at heq
    · exact absurd heq.symm (Nat.ne_of_lt hlt)
    · exact heq ▸ hm'

theorem precedes_act (r : Registry) : ∀ a : Act, r.Precedes (r.act a)
  | .register id link => precedes_register r id link
  | .remove id => (declines_remove r id).precedes
  | .deregister h => (declines_deregister r h).precedes
  | .clear => (declines_clear r).precedes
  | .call h start q limit => (declines_call r h start q limit).precedes
  | .cut h t => (declines_cut r h t).precedes
  | .dispatch moves rounds => (Dispatch.declines_run moves (.begin r (errands rounds))).precedes

theorem Consistent.act (hr : r.Consistent) : ∀ a : Act, (r.act a).Consistent
  | .register id link => hr.register id link
  | .remove id => hr.declines (declines_remove r id)
  | .deregister h => hr.declines (declines_deregister r h)
  | .clear => hr.declines (declines_clear r)
  | .call h start q limit => hr.declines (declines_call r h start q limit)
  | .cut h t => hr.declines (declines_cut r h t)
  | .dispatch moves rounds => hr.declines (Dispatch.declines_run moves (.begin r (errands rounds)))

/-- Who is replaced, removed, deregistered or cleared is no member afterwards. -/
theorem Consistent.ousted (hr : r.Consistent) {a : Act} (ho : h ∈ a.ousts r)
    (hlt : h < r.handles.length) : h ∉ (r.act a).members := by
  have herase : h ∉ r.members.erase h := hr.sound.distinct.not_mem_erase
  cases a with
  | register id link =>
    have hf : r.find? id = some h := Option.mem_toList.mp ho
    rw [Registry.act, Registry.register_of_some hf]
    intro hm
    obtain ⟨h', _, heq⟩ := List.mem_map.mp hm
    split at heq
    · exact absurd heq.symm (Nat.ne_of_lt hlt)
    · rename_i hne
      exact hne heq
  | remove id =>
    have hf : r.find? id = some h := Option.mem_toList.mp ho
    rw [Registry.act, Registry.remove, hf]
    exact herase
  | deregister h' =>
    obtain rfl := List.mem_singleton.mp ho
    exact herase
  | clear => exact List.not_mem_nil
  | call => cases ho
  | cut => cases ho
  | dispatch => cases ho

/-! ### Whole histories -/

theorem after_append (past later : List Act) :
    after (past ++ later) = later.foldl act (after past) := List.foldl_append

theorem Consistent.foldl_act (hr : r.Consistent) (acts : List Act) :
    (acts.foldl Registry.act r).Consistent := by
  induction acts generalizing r with
  | nil => exact hr
  | cons a acts ih => exact ih (hr.act a)

theorem consistent_after (acts : List Act) : (after acts).Consistent :=
  consistent_empty.foldl_act acts

theorem precedes_foldl_act (acts : List Act) (r : Registry) :
    r.Precedes (acts.foldl act r) := by
  induction acts generalizing r with
  | nil => exact (Declines.refl r).precedes
  | cons a acts ih => exact (precedes_act r a).trans (ih (r.act a))

/-- Whether a registry has come of the empty one. -/
def Reachable (r : Registry) : Prop := ∃ acts, after acts = r

theorem Reachable.consistent (hr : r.Reachable) : r.Consistent := by
  obtain ⟨acts, rfl⟩ := hr
  exact consistent_after acts

/-- What holds of every registry, whatever has happened to it: the members have distinct ids, the
trusted handles are members, and whoever was once put out is dead and out for good. A snapshot is
the trusted members in order, which are all the trusted handles there are. -/
theorem after_invariant (acts : List Act) :
    (after acts).workerIds.Nodup ∧
    (∀ h, (after acts).isAlive h = true → h ∈ (after acts).members) ∧
    (∀ past a, past ++ [a] <+: acts → ∀ h < (after past).handles.length,
      h ∈ a.ousts (after past) → h ∉ (after acts).members ∧ (after acts).isAlive h = false) ∧
    (after acts).snapshot.Sublist (after acts).members ∧
    (∀ h, h ∈ (after acts).snapshot ↔ (after acts).isAlive h = true) ∧
    ((after acts).snapshot.map (after acts).workerId).Nodup := by
  have hr := consistent_after acts
  have hsub : (after acts).snapshot.Sublist (after acts).members := List.filter_sublist
  refine ⟨hr.ids, hr.trusted, ?_, hsub, ?_, (hsub.map _).nodup hr.ids⟩
  · rintro past a ⟨later, rfl⟩ h hlt ho
    have hprecedes : ((after past).act a).Precedes (after (past ++ [a] ++ later)) := by
      rw [after_append, after_append]
      exact precedes_foldl_act later _
    have hout : h ∉ (after (past ++ [a] ++ later)).members := fun hm =>
      (consistent_after past).ousted ho hlt
        (hprecedes.members h (Nat.lt_of_lt_of_le hlt (precedes_act _ a).count) hm)
    exact ⟨hout, Bool.eq_false_iff.mpr fun ha => hout (hr.trusted h ha)⟩
  · intro h
    rw [snapshot, List.mem_filter]
    exact ⟨And.right, fun ha => ⟨hr.trusted h ha, ha⟩⟩

end Registry

end SumCluster
