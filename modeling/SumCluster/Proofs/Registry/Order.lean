import SumCluster.Proofs.Registry.Deregistration
import SumCluster.Proofs.Registry.Lifetime

/-!
The order of the workers. The registry is a list of handles that is changed in place; to whoever
uses it, it is a map from ids to handles that keeps the order in which the ids came. Main statement:
whatever is registered, removed, deregistered and cleared, the registry returns and holds what the
map does. So a worker that registers again while it is registered keeps its place, one that does so
after it was taken out comes last, and no operation changes the order of the workers that it is not
about.
-/

namespace SumCluster

open Network (Link)

/-! ### Maps that keep an order -/

/-- A map from ids to handles that keeps the order in which its ids were put in. -/
structure Roster where
  entries : List (String × HandleId)
  distinct : (entries.map Prod.fst).Nodup

namespace Roster

variable {m : Roster} {id : String} {h : HandleId} {p : String → Bool}

/-- Nobody is in it. -/
def empty : Roster := ⟨[], List.nodup_nil⟩

/-- The ids, in order. -/
def ids (m : Roster) : List String := m.entries.map Prod.fst

/-- The handles, in the order of their ids. -/
def handles (m : Roster) : List HandleId := m.entries.map Prod.snd

/-- The handle of an id. -/
def get? (m : Roster) (id : String) : Option HandleId := m.entries.lookup id

/-- The entries with a handle put in for an id: where the id stands if it is there, and last if it
is not. -/
def entriesWith (m : Roster) (id : String) (h : HandleId) : List (String × HandleId) :=
  if id ∈ m.ids then m.entries.map fun e => if e.1 = id then (id, h) else e
  else m.entries ++ [(id, h)]

theorem map_fst_entriesWith (m : Roster) (id : String) (h : HandleId) :
    (m.entriesWith id h).map Prod.fst = if id ∈ m.ids then m.ids else m.ids ++ [id] := by
  unfold entriesWith
  split
  · rw [List.map_map]
    refine List.map_congr_left fun e _ => ?_
    rw [Function.comp_apply]
    split
    · rename_i heq
      exact heq.symm
    · rfl
  · rw [List.map_append]
    rfl

/-- Puts a handle in for an id. -/
def put (m : Roster) (id : String) (h : HandleId) : Roster where
  entries := m.entriesWith id h
  distinct := by
    rw [map_fst_entriesWith]
    split
    · exact m.distinct
    · rename_i hnew
      exact List.nodup_append'.mpr
        ⟨m.distinct, List.nodup_singleton _, List.disjoint_singleton.mpr hnew⟩

/-- Takes an id out. -/
def erase (m : Roster) (id : String) : Roster where
  entries := m.entries.filter (·.1 != id)
  distinct := (List.filter_sublist.map Prod.fst).nodup m.distinct

theorem get?_eq_some_iff : m.get? id = some h ↔ (id, h) ∈ m.entries := by
  rw [get?, List.lookup_eq_some_iff]
  constructor
  · rintro ⟨before, after, heq, -⟩
    exact heq ▸ List.mem_append_right _ List.mem_cons_self
  · intro hm
    obtain ⟨before, after, heq⟩ := List.append_of_mem hm
    refine ⟨before, after, heq, fun e he => ?_⟩
    have hdistinct := m.distinct
    rw [heq, List.map_append, List.nodup_append'] at hdistinct
    refine bne_iff_ne.mpr fun hid => ?_
    exact hdistinct.2.2 (List.mem_map_of_mem he) (hid ▸ List.mem_cons_self)

theorem ids_put (m : Roster) (id : String) (h : HandleId) :
    (m.put id h).ids = if id ∈ m.ids then m.ids else m.ids ++ [id] := map_fst_entriesWith m id h

theorem not_mem_ids_erase (m : Roster) (id : String) : id ∉ (m.erase id).ids := by
  intro hm
  obtain ⟨e, he, hid⟩ := List.mem_map.mp hm
  exact bne_iff_ne.mp (List.mem_filter.mp he).2 hid

/-- Putting in or taking out an id leaves the entries of other ids as they are. -/
theorem filter_put (m : Roster) (h : HandleId) (hp : p id = false) :
    (m.put id h).entries.filter (p ·.1) = m.entries.filter (p ·.1) := by
  have hentries : (m.put id h).entries = m.entriesWith id h := rfl
  rw [hentries, entriesWith]
  split
  · induction m.entries with
    | nil => rfl
    | cons e es ih =>
      rw [List.map_cons]
      by_cases hid : e.1 = id
      · have hpe : p e.1 = false := hid ▸ hp
        rw [if_pos hid, List.filter_cons, List.filter_cons, ih]
        simp [hp, hpe]
      · rw [if_neg hid, List.filter_cons, List.filter_cons, ih]
  · rw [List.filter_append, List.filter_singleton]
    simp [hp]

theorem filter_erase (m : Roster) (hp : p id = false) :
    (m.erase id).entries.filter (p ·.1) = m.entries.filter (p ·.1) := by
  rw [erase, List.filter_filter]
  refine List.filter_congr fun e _ => ?_
  by_cases hid : e.1 = id
  · rw [hid, hp, Bool.false_and]
  · rw [bne_iff_ne.mpr hid, Bool.and_true]

theorem erase_of_not_mem (hid : id ∉ m.ids) : (m.erase id).entries = m.entries :=
  List.filter_eq_self.mpr fun _ he =>
    bne_iff_ne.mpr fun heq => hid (heq ▸ List.mem_map_of_mem he)

end Roster

/-! ### Operations -/

namespace Registry

/-- An operation on the registry. -/
inductive Change where
  | register (id : String) (link : Link)
  | remove (id : String)
  /-- Deregisters a handle, be it registered or stale. -/
  | deregister (h : HandleId)
  | clear

/-- What an operation returns. -/
inductive Returned where
  /-- The new handle. -/
  | registered (h : HandleId)
  /-- The handle that was taken out, if there was one. -/
  | removed (h : Option HandleId)
  /-- Whether the handle was taken out. -/
  | deregistered (found : Bool)
  | cleared
  deriving DecidableEq, Repr

/-- What an operation returns and leaves of a registry. -/
def change (r : Registry) : Change → Returned × Registry
  | .register id link => (.registered (r.register id link).1, (r.register id link).2)
  | .remove id => (.removed (r.remove id).1, (r.remove id).2)
  | .deregister h => (.deregistered (r.deregister h).1, (r.deregister h).2)
  | .clear => (.cleared, r.clear)

/-- What operations return and leave behind, one after the other. -/
def Change.run {σ : Type} (step : σ → Change → Returned × σ) (s : σ) :
    List Change → List Returned × σ
  | [] => ([], s)
  | c :: cs => ((step s c).1 :: (run step (step s c).2 cs).1, (run step (step s c).2 cs).2)

/-- An operation is about none of the workers whose ids have some property. -/
def Change.Spares (r : Registry) (p : String → Bool) : Change → Prop
  | .register id _ => p id = false
  | .remove id => p id = false
  | .deregister h => p (r.workerId h) = false
  | .clear => False

/-- The registered workers with their handles, in order. -/
def entries (r : Registry) : List (String × HandleId) := r.members.map fun h => (r.workerId h, h)

end Registry

/-- What the operations mean: the ids that were given with the handles there ever were, by number,
and the map of those that are registered. -/
structure Book where
  given : List String
  roster : Roster

namespace Book

/-- Nobody has registered yet. -/
def empty : Book := ⟨[], .empty⟩

/-- Takes a handle out if the map holds it for the id that it was given with. -/
def withdraw (b : Book) (h : HandleId) : Option Book :=
  match b.given[h]? with
  | some id => if b.roster.get? id = some h then some { b with roster := b.roster.erase id } else none
  | none => none

/-- What an operation means: a new handle is put in for its id, an id or a handle is taken out, or
the map is emptied. -/
def change (b : Book) : Registry.Change → Registry.Returned × Book
  | .register id _ =>
    (.registered b.given.length, ⟨b.given ++ [id], b.roster.put id b.given.length⟩)
  | .remove id => (.removed (b.roster.get? id), { b with roster := b.roster.erase id })
  | .deregister h => (.deregistered (b.withdraw h).isSome, (b.withdraw h).getD b)
  | .clear => (.cleared, { b with roster := .empty })

end Book

namespace Registry

variable {r r' : Registry} {b : Book} {h : HandleId} {id : String} {link : Link}

/-! ### A registry follows its book -/

theorem workerId_register_of_lt (hlt : h < r.handles.length) :
    (r.register id link).2.workerId h = r.workerId h := by
  cases hf : r.find? id with
  | none =>
    rw [register_of_none hf]
    exact workerId_of_lt rfl hlt
  | some old =>
    have hlt' : h < (r.kill old).handles.length := by rwa [kill, length_handles_update]
    rw [register_of_some hf]
    exact (workerId_of_lt (r := r.kill old) rfl hlt').trans (workerId_kill r old h)

theorem workerId_register_new (r : Registry) (id : String) (link : Link) :
    (r.register id link).2.workerId (r.register id link).1 = id := by
  rw [workerId, getElem?_register]
  rfl

theorem workerId_mem (hm : h ∈ r.members) : r.workerId h ∈ r.workerIds := List.mem_map_of_mem hm

theorem register_fst (r : Registry) (id : String) (link : Link) :
    (r.register id link).1 = r.handles.length := by
  unfold register
  cases r.find? id <;> rfl

/-- The registry holds what the book says. -/
structure Follows (r : Registry) (b : Book) : Prop where
  consistent : r.Consistent
  count : b.given.length = r.handles.length
  given : ∀ h < r.handles.length, b.given[h]? = some (r.workerId h)
  entries : r.entries = b.roster.entries

theorem follows_empty : empty.Follows .empty :=
  ⟨consistent_empty, rfl, fun _ hlt => absurd hlt (Nat.not_lt_zero _), rfl⟩

theorem Follows.workerIds (hf : r.Follows b) : r.workerIds = b.roster.ids := by
  rw [Roster.ids, ← hf.entries, Registry.entries, List.map_map]
  rfl

theorem Follows.members (hf : r.Follows b) : r.members = b.roster.handles := by
  rw [Roster.handles, ← hf.entries, Registry.entries, List.map_map]
  exact (List.map_id _).symm

theorem Follows.get? (hf : r.Follows b) (id : String) : b.roster.get? id = r.find? id := by
  refine Option.ext fun h => ?_
  rw [Roster.get?_eq_some_iff, ← hf.entries, hf.consistent.find?_eq_some_iff, Registry.entries,
    List.mem_map]
  constructor
  · rintro ⟨j, hj, heq⟩
    obtain ⟨rfl, rfl⟩ := Prod.mk.inj heq
    exact ⟨hj, rfl⟩
  · rintro ⟨hm, rfl⟩
    exact ⟨h, hm, rfl⟩

/-- What only takes away leaves the ids of the handles. -/
theorem Follows.declines (hf : r.Follows b) (hd : r.Declines r') (roster : Roster)
    (hentries : r'.members.map (fun h => (r.workerId h, h)) = roster.entries) :
    r'.Follows ⟨b.given, roster⟩ := by
  refine ⟨hf.consistent.declines hd, hf.count.trans hd.count.symm, fun h hlt => ?_, ?_⟩
  · rw [hd.workerId]
    exact hf.given h (hd.count ▸ hlt)
  · rw [Registry.entries, ← hentries]
    exact List.map_congr_left fun h _ => by rw [hd.workerId]

/-- A member is taken out together with its id. -/
theorem Follows.erase (hf : r.Follows b) (hm : h ∈ r.members) :
    { (r.kill h) with members := r.members.erase h : Registry }.Follows
      ⟨b.given, b.roster.erase (r.workerId h)⟩ := by
  refine hf.declines (declines_erase r h) _ ?_
  have herase : (b.roster.erase (r.workerId h)).entries =
      r.entries.filter (·.1 != r.workerId h) := by
    rw [hf.entries]
    rfl
  rw [herase, Registry.entries, List.filter_map, hf.consistent.sound.distinct.erase_eq_filter]
  congr 1
  refine List.filter_congr fun j hj => ?_
  rw [Function.comp_apply, Bool.eq_iff_iff, bne_iff_ne, bne_iff_ne]
  exact not_congr ⟨congrArg r.workerId, hf.consistent.eq_of_workerId hj hm⟩

/-- A new handle is put in for its id. -/
theorem Consistent.entries_register (hr : r.Consistent) (id : String) (link : Link) :
    (r.register id link).2.entries =
      if id ∈ r.workerIds then
        r.entries.map fun e => if e.1 = id then (id, r.handles.length) else e
      else r.entries ++ [(id, r.handles.length)] := by
  have hold (h : HandleId) (hm : h ∈ r.members) :
      ((r.register id link).2.workerId h, h) = (r.workerId h, h) :=
    congrArg (·, h) (workerId_register_of_lt (hr.sound.numbered h hm))
  have hnew : ((r.register id link).2.workerId r.handles.length, r.handles.length) =
      (id, r.handles.length) := by
    rw [← register_fst r id link, workerId_register_new]
  cases hfind : r.find? id with
  | none =>
    have hmembers : (r.register id link).2.members = r.members ++ [r.handles.length] := by
      rw [Registry.register_of_none hfind]
    rw [if_neg (find?_eq_none hfind), ← hnew, entries, hmembers, List.map_append,
      List.map_congr_left hold]
    rfl
  | some old =>
    obtain ⟨hm, hid⟩ := find?_eq_some hfind
    have hmembers : (r.register id link).2.members =
        r.members.map fun h => if h = old then r.handles.length else h := by
      rw [Registry.register_of_some hfind]
    rw [if_pos (hid ▸ workerId_mem hm), entries, entries, hmembers, List.map_map,
      List.map_map]
    refine List.map_congr_left fun h hmem => ?_
    rw [Function.comp_apply, Function.comp_apply]
    by_cases heq : h = old
    · rw [if_pos heq, hnew, heq, if_pos hid]
    · rw [if_neg heq, hold h hmem, if_neg fun hid' =>
        heq (hr.eq_of_workerId hmem hm (hid'.trans hid.symm))]

theorem Follows.register (hf : r.Follows b) (id : String) (link : Link) :
    (r.register id link).2.Follows ⟨b.given ++ [id], b.roster.put id b.given.length⟩ := by
  refine ⟨hf.consistent.register id link, ?_, fun h hlt => ?_, ?_⟩
  · rw [List.length_append, hf.count, length_handles_register]
    rfl
  · rw [length_handles_register, Nat.lt_succ_iff_lt_or_eq] at hlt
    rcases hlt with hlt | rfl
    · rw [workerId_register_of_lt hlt, List.getElem?_append_left (hf.count.symm ▸ hlt)]
      exact hf.given h hlt
    · rw [← hf.count, List.getElem?_concat_length, hf.count, ← register_fst r id link,
        workerId_register_new]
  · rw [hf.consistent.entries_register, hf.workerIds, hf.entries, ← hf.count]
    rfl

/-! ### Every operation does what it means -/

/-- A handle is taken out exactly if the book takes it out. -/
theorem Follows.deregister (hf : r.Follows b) (h : HandleId) :
    (r.deregister h).1 = (b.withdraw h).isSome ∧
      (r.deregister h).2.Follows ((b.withdraw h).getD b) := by
  by_cases hm : h ∈ r.members
  · have hwithdraw :
        b.withdraw h = some ⟨b.given, b.roster.erase (r.workerId h)⟩ := by
      rw [Book.withdraw, hf.given h (hf.consistent.sound.numbered h hm)]
      exact if_pos ((hf.get? _).trans (hf.consistent.find?_eq_some_iff.mpr ⟨hm, rfl⟩))
    rw [hwithdraw]
    exact ⟨List.contains_iff_mem.mpr hm, hf.erase hm⟩
  · have hwithdraw : b.withdraw h = none := by
      unfold Book.withdraw
      split
      · rw [hf.get?]
        exact if_neg fun hfind => hm (find?_eq_some hfind).1
      · rfl
    have hmembers : (r.deregister h).2.members = r.members := List.erase_of_not_mem hm
    rw [hwithdraw]
    refine ⟨by simpa [Registry.deregister] using hm, ?_⟩
    refine hf.declines (declines_deregister r h) b.roster ?_
    rw [hmembers]
    exact hf.entries

theorem Follows.remove (hf : r.Follows b) (id : String) :
    (r.remove id).1 = b.roster.get? id ∧
      (r.remove id).2.Follows ⟨b.given, b.roster.erase id⟩ := by
  rw [hf.get?]
  cases hfind : r.find? id with
  | none =>
    have hid : id ∉ b.roster.ids := hf.workerIds ▸ find?_eq_none hfind
    rw [Registry.remove, hfind]
    refine ⟨rfl, hf.declines (.refl r) _ ?_⟩
    rw [Roster.erase_of_not_mem hid]
    exact hf.entries
  | some h =>
    obtain ⟨hm, rfl⟩ := find?_eq_some hfind
    rw [Registry.remove, hfind]
    exact ⟨rfl, hf.erase hm⟩

/-- An operation returns and leaves what it means. -/
theorem Follows.step (hf : r.Follows b) (c : Change) :
    (r.change c).1 = (b.change c).1 ∧ (r.change c).2.Follows (b.change c).2 := by
  cases c with
  | register id link =>
    refine ⟨congrArg Returned.registered ?_, hf.register id link⟩
    rw [register_fst, hf.count]
  | remove id => exact ⟨congrArg Returned.removed (hf.remove id).1, (hf.remove id).2⟩
  | deregister h =>
    exact ⟨congrArg Returned.deregistered (hf.deregister h).1, (hf.deregister h).2⟩
  | clear => exact ⟨rfl, hf.declines (declines_clear r) .empty rfl⟩

theorem Follows.run (hf : r.Follows b) (cs : List Change) :
    (Change.run change r cs).1 = (Change.run Book.change b cs).1 ∧
      (Change.run change r cs).2.Follows (Change.run Book.change b cs).2 := by
  induction cs generalizing r b with
  | nil => exact ⟨rfl, hf⟩
  | cons c cs ih =>
    obtain ⟨hreturned, hnext⟩ := hf.step c
    obtain ⟨hrest, hlast⟩ := ih hnext
    exact ⟨congrArg₂ List.cons hreturned hrest, hlast⟩

/-! ### The order of the others -/

/-- An operation changes nothing about the workers that it is not about. -/
theorem Follows.filter_change (hf : r.Follows b) {p : String → Bool} {c : Change}
    (hc : c.Spares r p) :
    (r.change c).2.entries.filter (p ·.1) = r.entries.filter (p ·.1) := by
  rw [(hf.step c).2.entries, hf.entries]
  cases c with
  | register id link => exact Roster.filter_put b.roster _ hc
  | remove id => exact Roster.filter_erase b.roster hc
  | deregister h =>
    have hid : p (r.workerId h) = false := hc
    rw [Book.change, Book.withdraw]
    cases hgiven : b.given[h]? with
    | none => rfl
    | some id =>
      have hlt : h < r.handles.length := hf.count ▸ (List.getElem?_eq_some_iff.mp hgiven).1
      obtain rfl : r.workerId h = id := Option.some.inj ((hf.given h hlt).symm.trans hgiven)
      simp only
      split
      · exact Roster.filter_erase b.roster hid
      · rfl
  | clear => exact hc.elim

/-- A worker that registers again takes the place that it has. -/
theorem Consistent.register_in_place (hr : r.Consistent) {before after : List HandleId}
    {old : HandleId} (hmembers : r.members = before ++ old :: after) (link : Link) :
    (r.register (r.workerId old) link).2.members =
      before ++ (r.register (r.workerId old) link).1 :: after := by
  have hm : old ∈ r.members := hmembers ▸ List.mem_append_right _ List.mem_cons_self
  have hfind := hr.find?_eq_some_iff.mpr ⟨hm, rfl⟩
  have hdistinct := hr.sound.distinct
  rw [hmembers, List.nodup_middle, List.nodup_cons, List.mem_append, not_or] at hdistinct
  have hsame (hs : List HandleId) (hold : old ∉ hs) :
      (hs.map fun h => if h = old then r.handles.length else h) = hs :=
    (List.map_congr_left fun h hh => if_neg fun heq : h = old => hold (heq ▸ hh)).trans hs.map_id'
  rw [Registry.register_of_some hfind, hmembers, List.map_append, List.map_cons, if_pos rfl,
    hsame before hdistinct.1.1, hsame after hdistinct.1.2]

/-- Whatever is registered, removed, deregistered and cleared, the registry returns and holds what a
map from ids to handles does that keeps the order in which ids come. So at any time a worker that
registers again takes the place that it has, a worker whose id is not registered, be it because it
was removed, comes last, and the workers that an operation is not about stay as they are and in
their order. -/
theorem change_refines_roster (cs : List Change) :
    let r := (Change.run change empty cs).2
    let b := (Change.run Book.change .empty cs).2
    (Change.run change empty cs).1 = (Change.run Book.change .empty cs).1 ∧
    r.workerIds = b.roster.ids ∧ r.members = b.roster.handles ∧
    (∀ before old after link, r.members = before ++ old :: after →
      (r.register (r.workerId old) link).2.members =
        before ++ (r.register (r.workerId old) link).1 :: after ∧
      (r.register (r.workerId old) link).2.workerIds = r.workerIds) ∧
    (∀ id link, id ∉ r.workerIds →
      (r.register id link).2.members = r.members ++ [(r.register id link).1] ∧
      (r.register id link).2.workerIds = r.workerIds ++ [id]) ∧
    (∀ id, id ∉ (r.remove id).2.workerIds) ∧
    ∀ (p : String → Bool) (c : Change), c.Spares r p →
      (r.change c).2.entries.filter (p ·.1) = r.entries.filter (p ·.1) := by
  intro r b
  obtain ⟨hreturned, hf⟩ : _ ∧ r.Follows b := follows_empty.run cs
  have hids (id : String) (link : Link) : (r.register id link).2.workerIds =
      if id ∈ r.workerIds then r.workerIds else r.workerIds ++ [id] := by
    rw [(hf.register id link).workerIds, hf.workerIds]
    exact Roster.ids_put ..
  refine ⟨hreturned, hf.workerIds, hf.members, ?_, ?_, ?_, fun p c hc => hf.filter_change hc⟩
  · intro before old after link hmembers
    have hm : old ∈ r.members := hmembers ▸ List.mem_append_right _ List.mem_cons_self
    refine ⟨hf.consistent.register_in_place hmembers link, ?_⟩
    rw [hids, if_pos (workerId_mem hm)]
  · intro id link hid
    have hfind : r.find? id = none := by
      refine Option.eq_none_iff_forall_ne_some.mpr fun h hfind => hid ?_
      obtain ⟨hm, rfl⟩ := find?_eq_some hfind
      exact workerId_mem hm
    refine ⟨?_, by rw [hids, if_neg hid]⟩
    rw [register_of_none hfind]
  · intro id
    rw [(hf.remove id).2.workerIds]
    exact Roster.not_mem_ids_erase b.roster id

/-- Two workers register. The first leaves and registers again, the second registers again without
leaving, and then its old handle is deregistered. -/
def returning : List Change :=
  [.register "a" (.fresh 100 .silent [] 0), .register "b" (.fresh 100 .silent [] 0), .remove "a",
    .register "a" (.fresh 100 .silent [] 0), .register "b" (.fresh 100 .silent [] 0),
    .deregister 1]

theorem change_refines_roster_returning :
    let r := (Change.run change empty returning).2
    (Change.run change empty returning).1 =
      [.registered 0, .registered 1, .removed (some 0), .registered 2, .registered 3,
        .deregistered false] ∧
    r.workerIds = ["b", "a"] ∧ r.members = [3, 2] ∧
    (r.register "b" (.fresh 100 .silent [] 0)).2.members = [4, 2] ∧
    (r.register "c" (.fresh 100 .silent [] 0)).2.members = [3, 2, 4] := by
  intro r
  obtain ⟨hreturned, hids, hmembers, hplace, hlast, -⟩ := change_refines_roster returning
  exact ⟨hreturned.trans (by decide), hids.trans (by decide), hmembers.trans (by decide),
    (hplace [] 3 [2] _ (hmembers.trans (by decide))).1, (hlast "c" _ (by decide)).1⟩

end Registry

end SumCluster
