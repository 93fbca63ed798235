import SumCluster.Dispatch
import SumCluster.Proofs.Registry

/-!
What takes trust away. A call that fails ends the trust in its handle, and so does whatever takes a
member out; nothing gives trust back. So calls, removals and rounds all do one thing to a registry:
members leave, trust ends, and who leaves is dead.
-/

namespace SumCluster

open Network (Link)
open Wire (SubtaskRequest)

/-! ### One handle -/

namespace Handle

/-- Whether a call has failed. -/
def failed : Option Reply → Bool
  | some (.error _) => true
  | _ => false

variable (h : Handle) (request : SubtaskRequest) (limit : Option Nanos)

theorem conclude_leaves (link : Link) (reply : Reply) :
    (h.conclude link reply).2.workerId = h.workerId ∧
      (h.conclude link reply).2.alive =
        (h.alive && !failed (some (h.conclude link reply).1)) := by
  cases reply <;> simp [conclude, kill, failed]

theorem exchange_leaves : (h.exchange request limit).2.workerId = h.workerId ∧
    (h.exchange request limit).2.alive = (h.alive && !failed (h.exchange request limit).1) := by
  unfold exchange
  split
  · exact conclude_leaves ..
  · split
    · exact conclude_leaves ..
    · exact conclude_leaves ..
    · simp [failed]

/-- A call leaves the id as it is, and the trust too unless it fails. -/
theorem call_leaves (start : Nanos) : (h.call start request limit).2.workerId = h.workerId ∧
    (h.call start request limit).2.alive =
      (h.alive && !failed (h.call start request limit).1) := by
  unfold call
  split
  · simp [failed]
  · split
    · exact exchange_leaves { h with link := h.link.advance start } request limit
    · rename_i hdead
      simp [failed, hdead]

end Handle

namespace Registry

variable {r r' r'' : Registry} {h : HandleId}

/-! ### Changes to one handle -/

theorem workerId_update {f : Handle → Handle}
    (hf : ∀ handle, r.handles[h]? = some handle → (f handle).workerId = handle.workerId)
    (j : HandleId) : (r.update h f).workerId j = r.workerId j := by
  unfold workerId
  rw [handles_update]
  by_cases hj : h = j
  · subst hj
    cases hh : r.handles[h]? with
    | none => simp
    | some handle => simp [hf handle hh]
  · simp [hj]

/-- The trust in one handle goes on under a condition, that in the others goes on. -/
theorem isAlive_update {f : Handle → Handle} {b : Bool}
    (hf : ∀ handle, r.handles[h]? = some handle → (f handle).alive = (handle.alive && b))
    (j : HandleId) : (r.update h f).isAlive j = (r.isAlive j && (h != j || b)) := by
  unfold isAlive
  rw [handles_update]
  by_cases hj : h = j
  · subst hj
    cases hh : r.handles[h]? with
    | none => simp
    | some handle => simp [hf handle hh]
  · simp [hj]

theorem workerId_kill (r : Registry) (h j : HandleId) : (r.kill h).workerId j = r.workerId j :=
  workerId_update (f := Handle.kill) (fun _ _ => rfl) j

theorem isAlive_kill (r : Registry) (h j : HandleId) :
    (r.kill h).isAlive j = (r.isAlive j && h != j) := by
  rw [kill, isAlive_update (b := false) (fun handle _ => by simp [Handle.kill]), Bool.or_false]

/-- Killing some handles ends the trust in exactly those. -/
theorem isAlive_foldl_kill (hs : List HandleId) (r : Registry) (j : HandleId) :
    (hs.foldl kill r).isAlive j = (r.isAlive j && !hs.contains j) := by
  induction hs generalizing r with
  | nil => simp
  | cons h hs ih =>
    rw [List.foldl_cons, ih, isAlive_kill, List.contains_cons, Bool.not_or, Bool.and_assoc]
    rw [bne, BEq.comm (a := h)]

section

variable (r) (h) (start : Nanos) (q : SubtaskRequest) (limit : Option Nanos)

theorem members_call : (r.call h start q limit).2.members = r.members := by
  unfold call
  split <;> rfl

theorem workerId_call (j : HandleId) : (r.call h start q limit).2.workerId j = r.workerId j := by
  unfold call
  split
  · rename_i handle hh
    refine workerId_update (fun other ho => ?_) j
    obtain rfl := Option.some.inj (hh.symm.trans ho)
    exact (handle.call_leaves q limit start).1
  · rfl

/-- A call that fails ends the trust in its handle, and nothing else does. -/
theorem isAlive_call (j : HandleId) : (r.call h start q limit).2.isAlive j =
    (r.isAlive j && (h != j || !Handle.failed (r.call h start q limit).1)) := by
  unfold call
  split
  · rename_i handle hh
    refine isAlive_update (fun other ho => ?_) j
    obtain rfl := Option.some.inj (hh.symm.trans ho)
    exact (handle.call_leaves q limit start).2
  · simp [Handle.failed]

end

/-! ### Taking away -/

/-- What taking away may do: members leave, trust ends, and who leaves is dead. -/
structure Declines (r r' : Registry) : Prop where
  members : r'.members.Sublist r.members
  count : r'.handles.length = r.handles.length
  workerId : ∀ h, r'.workerId h = r.workerId h
  alive : ∀ h, r'.isAlive h = true → r.isAlive h = true
  left : ∀ h ∈ r.members, h ∉ r'.members → r'.isAlive h = false

theorem Declines.refl (r : Registry) : r.Declines r :=
  ⟨List.Sublist.refl _, rfl, fun _ => rfl, fun _ h => h, fun _ h hn => absurd h hn⟩

theorem Declines.trans (h₁ : r.Declines r') (h₂ : r'.Declines r'') : r.Declines r'' := by
  refine ⟨h₂.members.trans h₁.members, h₂.count.trans h₁.count,
    fun h => (h₂.workerId h).trans (h₁.workerId h), fun h ha => h₁.alive h (h₂.alive h ha), ?_⟩
  intro h hm hn
  by_cases hm' : h ∈ r'.members
  · exact h₂.left h hm' hn
  · rw [Bool.eq_false_iff]
    intro ha
    exact absurd (h₁.left h hm hm') (by simp [h₂.alive h ha])

theorem Sound.declines (hr : r.Sound) (hd : r.Declines r') : r'.Sound :=
  hr.of_sublist hd.members hd.count

/-- Changes to handles alone take nobody out. -/
theorem declines_of_members (members : r'.members = r.members)
    (count : r'.handles.length = r.handles.length)
    (workerId : ∀ h, r'.workerId h = r.workerId h)
    (alive : ∀ h, r'.isAlive h = true → r.isAlive h = true) : r.Declines r' :=
  ⟨members ▸ List.Sublist.refl _, count, workerId, alive, fun _ hm hn => absurd (members ▸ hm) hn⟩

theorem declines_kill (r : Registry) (h : HandleId) : r.Declines (r.kill h) := by
  refine declines_of_members rfl (length_handles_update r h _) (workerId_kill r h) fun j hj => ?_
  rw [isAlive_kill, Bool.and_eq_true] at hj
  exact hj.1

theorem declines_foldl_kill (hs : List HandleId) (r : Registry) :
    r.Declines (hs.foldl kill r) := by
  induction hs generalizing r with
  | nil => exact .refl r
  | cons h hs ih => exact (declines_kill r h).trans (ih (r.kill h))

theorem declines_call (r : Registry) (h : HandleId) (start : Nanos) (q : SubtaskRequest)
    (limit : Option Nanos) : r.Declines (r.call h start q limit).2 := by
  refine declines_of_members (members_call ..) ?_ (workerId_call r h start q limit) fun j hj => ?_
  · unfold call
    split
    · exact length_handles_update r h _
    · rfl
  · rw [isAlive_call, Bool.and_eq_true] at hj
    exact hj.1

theorem declines_cut (r : Registry) (h : HandleId) (t : Nanos) : r.Declines (r.cut h t) := by
  refine declines_of_members rfl (length_handles_update r h _)
    (workerId_update (f := (·.cut t)) fun _ _ => rfl) fun j hj => ?_
  rw [cut, isAlive_update (b := true) (fun handle _ => by simp [Handle.cut]), Bool.or_true,
    Bool.and_true] at hj
  exact hj

/-- Who is taken out of the list of members is killed. -/
theorem declines_erase (r : Registry) (h : HandleId) :
    r.Declines { (r.kill h) with members := r.members.erase h } := by
  have hkill := declines_kill r h
  refine ⟨List.erase_sublist, hkill.count, hkill.workerId, hkill.alive, ?_⟩
  intro j hm hn
  obtain rfl : h = j := by
    by_contra hne
    exact hn ((List.mem_erase_of_ne (Ne.symm hne)).mpr hm)
  have hdead := isAlive_kill r h h
  rwa [bne_self_eq_false, Bool.and_false] at hdead

theorem declines_deregister (r : Registry) (h : HandleId) : r.Declines (r.deregister h).2 :=
  declines_erase r h

theorem declines_remove (r : Registry) (id : String) : r.Declines (r.remove id).2 := by
  unfold remove
  split
  · exact declines_erase r _
  · exact .refl r

theorem declines_clear (r : Registry) : r.Declines r.clear := by
  have hkill := declines_foldl_kill r.members r
  refine ⟨List.nil_sublist _, hkill.count, hkill.workerId, hkill.alive, ?_⟩
  intro h hm _
  have hdead := isAlive_foldl_kill r.members r h
  rwa [List.contains_iff_mem.mpr hm, Bool.not_true, Bool.and_false] at hdead

end Registry

/-! ### Rounds -/

namespace Dispatch

variable {errands : List Errand}

theorem declines_step (d : Dispatch) (m : Move) :
    d.registry.Declines (d.step errands m).registry := by
  unfold step
  split
  · split
    · exact Registry.declines_call ..
    · exact .refl _
  · split
    · exact Registry.declines_deregister ..
    · exact .refl _

/-- Rounds only take away, whatever the order of their moves. -/
theorem declines_run (moves : List Move) (d : Dispatch) :
    d.registry.Declines (d.run errands moves).registry := by
  induction moves generalizing d with
  | nil => exact .refl _
  | cons m moves ih => exact (declines_step d m).trans (ih (d.step errands m))

end Dispatch

theorem Registry.Sound.dispatchWith {r : Registry} (hr : r.Sound) (moves : List Move)
    (rounds : List Round) : (r.dispatchWith moves rounds).2.Sound :=
  hr.declines (Dispatch.declines_run moves (.begin r (Registry.errands rounds)))

end SumCluster
