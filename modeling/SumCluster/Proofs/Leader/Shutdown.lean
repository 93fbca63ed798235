import SumCluster.Proofs.Admission
import SumCluster.Proofs.Registry.History

/-!
A leader in the course of time, and what its end leaves. Shutting down takes every worker out and
ends the listening, but a connection that was accepted before goes on by itself: its handshake may
come later, and then it is registered all the same. Main statement: at the moment of the shutdown
nobody is registered or trusted, and whoever was registered before stays out for good; afterwards
there are at most as many registrations as connections that still owed their handshake.
-/

namespace SumCluster

open Network (Link Event)
open Wire (Message SubtaskRequest)

/-! ### Sessions only take away -/

namespace Overlap

theorem declines_expel (r : Registry) (failures : List FailedCall) :
    r.Declines (expel r failures) := by
  induction failures generalizing r with
  | nil => exact .refl r
  | cons f failures ih => exact (Registry.declines_deregister r f.handle).trans (ih _)

end Overlap

namespace Visit

theorem declines_serve (d : Dispatcher) (o : Overlap) (v : Visit) :
    o.registry.Declines (v.serve d o).2.registry :=
  (Overlap.declines_expel o.registry _).trans (Dispatch.declines_run _ (.begin _ _))

theorem declines_serveInTurn (d : Dispatcher) (visits : List Visit) (o : Overlap) :
    o.registry.Declines (serveInTurn d o visits).2.registry := by
  induction visits generalizing o with
  | nil => exact .refl _
  | cons v visits ih => exact (declines_serve d o v).trans (ih (v.serve d o).2)

end Visit

theorem Session.declines_serveAll (d : Dispatcher) (r : Registry) (clients : List Link) :
    r.Declines (Session.serveAll d r clients).2 :=
  (Visit.declines_serveInTurn d _ (.ofRegistry r)).trans (Overlap.declines_expel _ _)

namespace Leader

/-! ### What happens to a leader -/

/-- Something that happens to a leader. A session that other acts interrupt is its calls and the
deregistrations of the workers that fail, one by one. -/
inductive Act where
  /-- A worker connects. -/
  | accept (worker : Link)
  /-- Something arrives on an accepted connection. -/
  | arrive (place : Nat) (e : Event)
  /-- An accepted connection looks for its handshake. -/
  | enroll (place : Nat)
  /-- Some clients are served at once. -/
  | serve (clients : List Link)
  | call (h : HandleId) (start : Nanos) (request : SubtaskRequest) (limit : Option Nanos)
  | deregister (h : HandleId)
  /-- The worker behind a handle disappears. -/
  | cut (h : HandleId) (t : Nanos)
  | shutDown

/-- What an act leaves of a leader. -/
def act (l : Leader) : Act → Leader
  | .accept worker => l.accept worker
  | .arrive place e => l.deliver place e
  | .enroll place => (l.enroll place).2
  | .serve clients => (l.serveAll clients).2
  | .call h start request limit =>
    { l with registry := (l.registry.call h start request limit).2 }
  | .deregister h => { l with registry := (l.registry.deregister h).2 }
  | .cut h t => { l with registry := l.registry.cut h t }
  | .shutDown => l.shutDown

/-- A leader after some acts, one after the other. -/
def after (l : Leader) (acts : List Act) : Leader := acts.foldl act l

/-- All that an act can do to the registry and to the connections that owe their handshake. -/
inductive Changes (l l' : Leader) : Prop where
  /-- At most something is taken away. -/
  | declines (registry : l.registry.Declines l'.registry)
      (pending : l'.pending.length ≤ l.pending.length)
      (listening : l'.listening = true → l.listening = true)
  /-- A connection is accepted, which needs a leader that listens. -/
  | accepts (listens : l.listening = true) (registry : l'.registry = l.registry)
  /-- A connection that owed its handshake is registered. -/
  | registers (id : String) (link : Link) (registry : l'.registry = (l.registry.register id link).2)
      (pending : l'.pending.length + 1 = l.pending.length) (listening : l'.listening = l.listening)

variable {l l' l₀ : Leader}

theorem enroll_changes (l : Leader) (place : Nat) : Changes l (l.enroll place).2 := by
  unfold enroll
  cases hplace : l.pending[place]? with
  | none => exact .declines (.refl _) (Nat.le_refl _) id
  | some worker =>
    have hlt := (List.getElem?_eq_some_iff.mp hplace).1
    have herase := List.length_eraseIdx_add_one hlt
    rcases hread : Admission.read worker with ⟨_ | _ | id, link⟩ <;>
      simp only [Admission.register, hread]
    · exact .declines (.refl _) (Nat.le_of_eq List.length_set) id
    · exact .declines (.refl _) (herase ▸ Nat.le_succ _) id
    · exact .registers id link rfl herase rfl

theorem act_changes (l : Leader) (a : Act) : Changes l (l.act a) := by
  cases a with
  | accept worker =>
    rw [act, accept]
    split
    · rename_i hlistens
      exact .accepts hlistens rfl
    · exact .declines (.refl _) (Nat.le_refl _) id
  | arrive place e => exact .declines (.refl _) (Nat.le_of_eq (List.length_modify ..)) id
  | enroll place => exact enroll_changes l place
  | serve clients =>
    exact .declines (Session.declines_serveAll l.dispatcher l.registry clients) (Nat.le_refl _) id
  | call h start request limit =>
    exact .declines (Registry.declines_call ..) (Nat.le_refl _) id
  | deregister h => exact .declines (Registry.declines_deregister ..) (Nat.le_refl _) id
  | cut h t => exact .declines (Registry.declines_cut ..) (Nat.le_refl _) id
  | shutDown => exact .declines (Registry.declines_clear _) (Nat.le_refl _) nofun

/-! ### The registry of a leader -/

theorem Changes.consistent (hc : Changes l l') (hr : l.registry.Consistent) :
    l'.registry.Consistent := by
  cases hc with
  | declines registry => exact hr.declines registry
  | accepts _ registry => exact registry ▸ hr
  | registers id link registry => exact registry ▸ hr.register id link

theorem consistent_after (hr : l.registry.Consistent) (acts : List Act) :
    (l.after acts).registry.Consistent := by
  induction acts generalizing l with
  | nil => exact hr
  | cons a acts ih => exact ih ((act_changes l a).consistent hr)

theorem consistent_bind {c : LeaderConfig} {free : Endpoint → Except String Unit}
    (started : bind c free = .ok l) : l.registry.Consistent := by
  unfold bind at started
  repeat' split at started
  all_goals cases started
  exact Registry.consistent_empty

/-! ### After the shutdown -/

/-- Where a leader stands that has shut down: it accepts nobody, whoever has left stays away, and
every new handle has used up a connection that owed its handshake. -/
structure Stopped (l₀ l : Leader) : Prop where
  deaf : l.listening = false
  consistent : l.registry.Consistent
  precedes : l₀.registry.Precedes l.registry
  room : l.registry.handles.length + l.pending.length ≤
    l₀.registry.handles.length + l₀.pending.length

theorem stopped_shutDown (hr : l.registry.Consistent) : Stopped l.shutDown l.shutDown :=
  ⟨rfl, hr.declines (Registry.declines_clear _), (Registry.Declines.refl _).precedes,
    Nat.le_refl _⟩

theorem Stopped.changes (hs : Stopped l₀ l) (hc : Changes l l') : Stopped l₀ l' := by
  have hconsistent := hc.consistent hs.consistent
  have hroom := hs.room
  cases hc with
  | declines registry pending listening =>
    refine ⟨?_, hconsistent, hs.precedes.trans registry.precedes, ?_⟩
    · exact Bool.eq_false_iff.mpr fun h => absurd (hs.deaf.symm.trans (listening h)) nofun
    · rw [registry.count]
      omega
  | accepts listens => exact absurd (hs.deaf.symm.trans listens) nofun
  | registers id link registry pending listening =>
    refine ⟨listening.trans hs.deaf, hconsistent, hs.precedes.trans ?_, ?_⟩
    · exact registry ▸ Registry.precedes_register l.registry id link
    · rw [registry, Registry.length_handles_register]
      omega

theorem Stopped.after (hs : Stopped l₀ l) (acts : List Act) : Stopped l₀ (l.after acts) := by
  induction acts generalizing l with
  | nil => exact hs
  | cons a acts ih => exact ih (hs.changes (act_changes l a))

/-- Nobody can be trusted where nobody is registered. -/
theorem dead_of_no_members {r : Registry} (hr : r.Consistent) (h : r.members = []) (x : HandleId) :
    r.isAlive x = false := by
  refine Bool.eq_false_iff.mpr fun ha => ?_
  have hmem := hr.trusted x ha
  rw [h] at hmem
  exact List.not_mem_nil hmem

/-- Whoever is registered after a shutdown that left nobody has a number that is new since then. -/
theorem Stopped.le_of_mem (hs : Stopped l₀ l) (hempty : l₀.registry.members = []) {h : HandleId}
    (hm : h ∈ l.registry.members) : l₀.registry.handles.length ≤ h := by
  refine Nat.not_lt.mp fun hlt => ?_
  have hold := hs.precedes.members h hlt hm
  rw [hempty] at hold
  exact List.not_mem_nil hold

/-- There are no more of them than connections that have made up for their handshake. -/
theorem Stopped.length_members_le (hs : Stopped l₀ l) (hempty : l₀.registry.members = []) :
    l.registry.members.length + l.pending.length ≤ l₀.pending.length := by
  -- Different numbers, all of handles that are new, so there are not more than new handles.
  have hsub : l.registry.members ⊆ List.range' l₀.registry.handles.length
      (l.registry.handles.length - l₀.registry.handles.length) := by
    intro h hm
    have hge := hs.le_of_mem hempty hm
    have hlt := hs.consistent.sound.numbered h hm
    rw [List.mem_range'_1, Nat.add_sub_cancel' hs.precedes.count]
    exact ⟨hge, hlt⟩
  have hcount := (List.subperm_of_subset hs.consistent.sound.distinct hsub).length_le
  have hprecedes := hs.precedes.count
  have hroom := hs.room
  rw [List.length_range'] at hcount
  omega

/-- The handshake of a connection may come after the shutdown; then the connection is registered and
trusted like any other. -/
theorem enroll_of_introduces (hempty : l.registry.members = []) {place : Nat} {worker : Link}
    {id : String} {rest : Wire.Bytes} (hplace : l.pending[place]? = some worker)
    (sound : worker.connection.Sound) (introduces : Admission.Introduces worker id rest) :
    (l.enroll place).2.registry.members = [l.registry.handles.length] ∧
      (l.enroll place).2.registry.isAlive l.registry.handles.length = true := by
  obtain ⟨link, hregister, -⟩ := introduces.register sound l.registry
  have hnone : l.registry.find? id = none := by
    rw [Registry.find?, hempty]
    rfl
  have henroll : (l.enroll place).2.registry = (l.registry.register id link).2 := by
    rw [Leader.enroll, hplace]
    simp only [hregister]
  have hnew := Registry.getElem?_register l.registry id link
  rw [henroll]
  rw [Registry.register_of_none hnone] at hnew ⊢
  refine ⟨by simp only [hempty, List.nil_append], ?_⟩
  rw [Registry.isAlive_of_getElem? hnew]
  rfl

/-- The end of a leader, whatever happened before and whatever happens later. When it shuts down,
nobody is registered, nobody is trusted, and nobody is accepted any more. Whoever was registered
before stays out and dead. Later there are no more registrations than connections that owed their
handshake at the shutdown, so there are none if there were no such connections; but each of these is
registered if its handshake comes. -/
theorem shutDown_leaves {c : LeaderConfig} {free : Endpoint → Except String Unit}
    (started : bind c free = .ok l) (past later : List Act) :
    let stopped := (l.after past).shutDown
    let last := stopped.after later
    (stopped.registry.members = [] ∧ (∀ h, stopped.registry.isAlive h = false) ∧
      last.listening = false) ∧
    (∀ h < stopped.registry.handles.length,
      h ∉ last.registry.members ∧ last.registry.isAlive h = false) ∧
    last.registry.members.length + last.pending.length ≤ stopped.pending.length ∧
    (stopped.pending = [] → last.registry.members = [] ∧ ∀ h, last.registry.isAlive h = false) ∧
    ∀ (place : Nat) worker id rest, stopped.pending[place]? = some worker →
      worker.connection.Sound → Admission.Introduces worker id rest →
      (stopped.enroll place).2.registry.members = [stopped.registry.handles.length] ∧
      (stopped.enroll place).2.registry.isAlive stopped.registry.handles.length = true := by
  intro stopped last
  have hconsistent := consistent_after (consistent_bind started) past
  have hempty : stopped.registry.members = [] := rfl
  have hstopped : Stopped stopped stopped := stopped_shutDown hconsistent
  have hlast : Stopped stopped last := hstopped.after later
  have hcount := hlast.length_members_le hempty
  have hout : ∀ h < stopped.registry.handles.length, h ∉ last.registry.members :=
    fun h hlt hm => absurd (hlast.le_of_mem hempty hm) (Nat.not_le.mpr hlt)
  refine ⟨⟨hempty, dead_of_no_members hstopped.consistent hempty, hlast.deaf⟩,
    fun h hlt => ⟨hout h hlt, ?_⟩, hcount, fun hnone => ?_,
    fun place worker id rest hplace => enroll_of_introduces hempty hplace⟩
  · exact Bool.eq_false_iff.mpr fun ha => hout h hlt (hlast.consistent.trusted h ha)
  · rw [hnone, List.length_nil] at hcount
    have hmembers : last.registry.members = [] :=
      List.length_eq_zero_iff.mp (Nat.le_zero.mp (Nat.le_trans (Nat.le_add_right _ _) hcount))
    exact ⟨hmembers, dead_of_no_members hlast.consistent hmembers⟩

/-- A leader with the default settings. -/
def usual : Leader := ⟨.default, .empty, [], true, 0⟩

/-- The connection of a worker that has not sent anything yet. -/
def newcomer : Link := .fresh 1000 .silent [] 0

/-- What the worker sends then. -/
def greeting : Event := .bytes (Message.handshake ⟨"w"⟩).frame

/-- A worker that is registered in time leaves with the others, and one that owes its handshake is
the only one that may come later. -/
theorem shutDown_leaves_usual :
    let stopped := (usual.after
      [.accept newcomer, .arrive 0 greeting, .enroll 0, .accept newcomer]).shutDown
    let last := stopped.after [.arrive 0 greeting, .accept newcomer, .enroll 0]
    stopped.registry.members = [] ∧ last.registry.isAlive 0 = false ∧
      last.registry.members.length + last.pending.length ≤ 1 := by
  obtain ⟨⟨hempty, -, -⟩, hold, hcount, -⟩ := shutDown_leaves
    (show bind .default (fun _ => .ok ()) = .ok usual from rfl)
    [.accept newcomer, .arrive 0 greeting, .enroll 0, .accept newcomer]
    [.arrive 0 greeting, .accept newcomer, .enroll 0]
  exact ⟨hempty, (hold 0 (by decide +kernel)).2, hcount⟩

/-- A worker is accepted, the leader shuts down, and then the handshake comes: the worker is
registered and trusted. -/
theorem registered_after_shutDown :
    bind .default (fun _ => .ok ()) = .ok usual ∧
    (usual.after [.accept newcomer, .shutDown]).registry.members = [] ∧
    (usual.after [.accept newcomer, .shutDown, .arrive 0 greeting, .enroll 0]).registry.members =
      [0] ∧
    (usual.after [.accept newcomer, .shutDown, .arrive 0 greeting, .enroll 0]).registry.isAlive 0 =
      true :=
  ⟨rfl, rfl, by decide +kernel, by decide +kernel⟩

end Leader

end SumCluster
